import Transplant.Json.Equality
import Transplant.Proofs.Elsewhere
import Transplant.Proofs.Tapes
import Transplant.World

/-! Cassettes on a shelf. A session that is finished leaves two files, and wherever these two stand in
the directory of the session they are loaded as the tape of the model with that of the clock behind. -/
namespace Transplant

section Runs

variable {σ ε α β : Type} {s s' : σ} {a : α} {e : ε} {f : α → ExceptT ε (StateM σ) β}

theorem run_fetched {x : StateM σ α} (ran : x.run s = (a, s')) :
    (ExceptT.lift x >>= f).run.run s = (f a).run.run s' := by
  rw [ExceptT.run_bind_lift, StateT.run_bind, ran]
  rfl

theorem run_next {x : ExceptT ε (StateM σ) α} (ran : x.run.run s = (.ok a, s')) :
    (x >>= f).run.run s = (f a).run.run s' := by
  rw [ExceptT.run_bind, StateT.run_bind, ran]
  rfl

theorem run_stopped {x : ExceptT ε (StateM σ) α} (ran : x.run.run s = (.error e, s')) :
    (x >>= f).run.run s = (.error e, s') := by
  rw [ExceptT.run_bind, StateT.run_bind, ran]
  rfl

end Runs

namespace FileTree

variable {t u : FileTree} {p q : Path} {text : String}

theorem read_writeOver (h : t.writeOver p text = .ok u) : u.read p = .ok text := by
  obtain ⟨place, name, located, slash, short⟩ := writeOver_steps h
  obtain ⟨_, leads⟩ := locateLast_ok located
  obtain ⟨checked, before, split, followed, here⟩ := locateLast_steps located
  have further := extends_writeOver h
  have there : u.node? p.place = some (.file (.ofText text)) := by rw [(node?_writeOver h).2, if_pos rfl]
  have next : u.follow place (.down name) = .ok (name :: place) := by
    rw [follow, if_neg (Nat.not_lt.mpr short), if_pos]
    rw [get?_isSome_iff]
    change u.node? (Step.move place (.down name)).reverse ≠ none
    rw [leads, there]
    simp
  have all : u.followAll [] (steps p) = .ok (name :: place) := by
    rw [split]
    exact followAll_append.mpr ⟨place, further.followAll followed, further.isDirAt here, next⟩
  have found : u.locate p = .ok (name :: place) := by
    rw [locate, checked, all]
    change (if p.endsInSlash && !u.isDirAt (name :: place) then _ else _) = _
    rw [slash]
    rfl
  rw [node?, Option.map_eq_some_iff] at there
  obtain ⟨sub, there, same⟩ := there
  cases sub with
  | dir entries => cases same
  | file contents =>
    cases same
    have got : u.get? (name :: place).reverse = some (.file (.ofText text)) := by
      rw [← there, ← leads]
      rfl
    simp only [FileTree.read, find, found, bind, Except.bind, got]
    rfl

theorem dirs_of_writeOver {c : Path.Component} (h : t.writeOver p text = .ok u)
    (split : p.components = q.components ++ [c]) {place : List String} (on : place ∈ q.way) :
    t.node? place = some .dir := by
  obtain ⟨_, _, located, _⟩ := writeOver_steps h
  exact (dirs_above split located).1 place on

end FileTree

namespace Path

theorem text_join_ne {p : Path} {name : String} (some : name ≠ "") : (p.join name).text ≠ "" := by
  unfold Path.join
  dsimp only
  split_ifs <;> simp [some]

theorem mem_way_join {dir : Path} {name : String} (named : IsName name) {q : List String}
    (on : q ∈ (dir.join name).way) : q ∈ dir.way ∨ q = (dir.join name).place := by
  have names : ∀ other ∈ [name], IsName other := by simpa using named
  rcases mem_way_joinAll names on with above | ⟨front, behind, split, rfl⟩
  · exact .inl above
  · cases front with
    | nil => exact .inl (by rw [List.append_nil]; exact dir.place_mem_way)
    | cons first rest =>
      obtain ⟨rfl, none⟩ := List.cons.inj split
      obtain ⟨rfl, rfl⟩ := List.append_eq_nil_iff.mp none.symm
      exact .inr (place_joinAll names).symm

end Path

namespace Session

def cassettes (s : Session) : List Path := [modelService, clockService].map (cassettePath s.dir)

def places (s : Session) : List (List String) := s.cassettes.map Path.place

theorem mem_places_iff {s : Session} {q : List String} : q ∈ s.places ↔
    q = (cassettePath s.dir modelService).place ∨ q = (cassettePath s.dir clockService).place :=
  List.mem_pair

def cassette (s : Session) (today : Instant) (service : String) (tape : Tape) : Cassette :=
  ⟨s.name ++ "-" ++ service, today, tape⟩

theorem isName_cassette {service : String} (known : service ∈ [modelService, clockService]) :
    IsName (cassetteName service) := by
  rw [List.mem_pair] at known
  rcases known with rfl | rfl <;> decide

theorem components_cassette (dir : Path) {service : String}
    (known : service ∈ [modelService, clockService]) :
    (cassettePath dir service).components = dir.components ++ [.normal (cassetteName service)] := by
  have named := isName_cassette known
  rw [cassettePath, Path.components_join (Build.staysBelow_of_isName named), named]

theorem read_congr {dir : Path} {service : String} (known : service ∈ [modelService, clockService])
    {t u : FileTree} (dirs : ∀ q ∈ dir.way, t.node? q = some .dir)
    (dirs' : ∀ q ∈ dir.way, u.node? q = some .dir)
    (last : t.node? (cassettePath dir service).place = u.node? (cassettePath dir service).place) :
    t.read (cassettePath dir service) = u.read (cassettePath dir service) := by
  apply FileTree.read_congr _ last
  intro q on
  rw [FileTree.SameKind]
  rcases Path.mem_way_join (isName_cassette known) on with above | rfl
  · rw [dirs q above, dirs' q above]
  · exact congrArg _ last

variable {s : Session} {today : Instant} {w w' : World} {before t mid u v : FileTree} {r : Recording}

/-- A session that has started has its directory. -/
theorem start_ok {root : Path} (ok : (start (World.shelf today) root).run.run w = (.ok s, w')) :
    w'.tree.isDirectory s.dir = true := by
  have day : (World.shelf today).today.run w = (today, w) := rfl
  have there : ∀ p, ((World.shelf today).contains p).run w = (w.tree.exists? p, w) := fun _ => rfl
  have made : ∀ p, ((World.shelf today).createDir p).run w =
    ((w.tree.makeAll p).1, { w with tree := (w.tree.makeAll p).2 }) := fun _ => rfl
  have some : (root.join today.sessionName).text ≠ "" :=
    Path.text_join_ne (by simp [Instant.sessionName])
  rw [start, run_fetched day, run_fetched (there _)] at ok
  split_ifs at ok
  · cases ok
  · rw [run_fetched (made _)] at ok
    rcases result : w.tree.makeAll (root.join today.sessionName) with ⟨_ | ⟨⟨⟩⟩, t⟩
    · rw [result] at ok
      cases ok
    · rw [result] at ok
      have ended : (Except.ok ⟨root.join today.sessionName, today.sessionName⟩, { w with tree := t }) =
        ((.ok s, w') : Except SessionError Session × World) := ok
      obtain ⟨session, after⟩ := Prod.mk.inj ended
      rw [← after, ← Except.ok.inj session]
      dsimp only
      exact (FileTree.settled_makeAll result).resolve_left some

theorem keep_run (service : String) (tape : Tape) (w : World) :
    (s.keep (World.shelf today) service ⟨tape, false⟩).run.run w =
      match w.tree.writeOver (cassettePath s.dir service) (s.cassette today service tape).toText with
      | .ok t => (.ok (), { w with tree := t })
      | .error e => (.error (.unwritten service e), w) := by
  have kept : ((World.shelf today).keep (cassettePath s.dir service) (s.name ++ "-" ++ service) tape).run w =
      w.overwrite (cassettePath s.dir service) (s.cassette today service tape).toText := rfl
  rw [keep]
  simp only [Bool.false_eq_true, if_false, run_fetched kept]
  cases w.tree.writeOver (cassettePath s.dir service) (s.cassette today service tape).toText <;> rfl

theorem finish_ok (finished : (s.finish (World.shelf today) r.released).run.run w = (.ok (), w')) :
    ∃ mid t, w.tree.writeOver (cassettePath s.dir modelService)
        (s.cassette today modelService r.model.tape).toText = .ok mid ∧
      mid.writeOver (cassettePath s.dir clockService)
        (s.cassette today clockService r.clock.tape).toText = .ok t ∧
      w' = { w with tree := t } := by
  have first : (s.keep (World.shelf today) modelService ⟨r.model.tape, false⟩).run.run w = _ :=
    keep_run modelService r.model.tape w
  cases wrote : w.tree.writeOver (cassettePath s.dir modelService)
      (s.cassette today modelService r.model.tape).toText with
  | error e =>
    rw [wrote] at first
    rw [finish, Recording.released, run_stopped first] at finished
    cases finished
  | ok mid =>
    rw [wrote] at first
    rw [finish, Recording.released, run_next first, keep_run] at finished
    cases second : mid.writeOver (cassettePath s.dir clockService)
        (s.cassette today clockService r.clock.tape).toText with
    | error e => rw [second] at finished; cases finished
    | ok t => rw [second] at finished; cases finished; exact ⟨mid, t, rfl, second, rfl⟩

/-- Two files are written, and nothing else changes. -/
theorem node?_kept {modelText clockText : String}
    (first : t.writeOver (cassettePath s.dir modelService) modelText = .ok mid)
    (second : mid.writeOver (cassettePath s.dir clockService) clockText = .ok u) (q : List String) :
    u.node? q = if q = (cassettePath s.dir clockService).place then some (.file (.ofText clockText))
      else if q = (cassettePath s.dir modelService).place then some (.file (.ofText modelText))
      else t.node? q := by
  rw [(FileTree.node?_writeOver second).2, (FileTree.node?_writeOver first).2]

/-- The cassettes that were written are read in any tree that has them, and else what was there before
the session wrote and did anything else. -/
theorem read_cassettes {modelText clockText : String} (there : before.isDirectory s.dir = true)
    (first : t.writeOver (cassettePath s.dir modelService) modelText = .ok mid)
    (second : mid.writeOver (cassettePath s.dir clockService) clockText = .ok u)
    (kept : ∀ q ∈ s.places, v.node? q = u.node? q) (others : FileTree.SameBut s.places before v) :
    v.read (cassettePath s.dir modelService) = .ok modelText ∧
      v.read (cassettePath s.dir clockService) = .ok clockText := by
  have further := FileTree.extends_writeOver second
  have dirs : ∀ q ∈ s.dir.way, mid.node? q = some .dir := fun q on =>
    (FileTree.extends_writeOver first).dir
      (FileTree.dirs_of_writeOver first (components_cassette s.dir List.mem_cons_self) on)
  have dirs' : ∀ q ∈ s.dir.way, u.node? q = some .dir := fun q on => further.dir (dirs q on)
  have clockNode : u.node? (cassettePath s.dir clockService).place = some (.file (.ofText clockText)) := by
    rw [(FileTree.node?_writeOver second).2, if_pos rfl]
  have other : (cassettePath s.dir modelService).place ≠ (cassettePath s.dir clockService).place := by
    rw [cassettePath, cassettePath, Path.place_join_entry _ (isName_cassette List.mem_cons_self),
      Path.place_join_entry _ (isName_cassette (by simp)), Ne, List.append_cancel_left_eq]
    decide
  have unchanged : u.node? (cassettePath s.dir modelService).place =
      mid.node? (cassettePath s.dir modelService).place := by
    rw [(FileTree.node?_writeOver second).2, if_neg other]
  have modelNode : u.node? (cassettePath s.dir modelService).place = some (.file (.ofText modelText)) := by
    rw [unchanged, (FileTree.node?_writeOver first).2, if_pos rfl]
  -- No directory on the way is one of the files, so the way stands as it was before.
  have way : ∀ q ∈ s.dir.way, v.node? q = some .dir := by
    intro q on
    rw [others q, FileTree.dirs_of_isDirectory there on]
    intro member
    have file : ∃ contents, u.node? q = some (.file contents) := by
      rcases mem_places_iff.mp member with rfl | rfl
      · exact ⟨_, modelNode⟩
      · exact ⟨_, clockNode⟩
    obtain ⟨contents, file⟩ := file
    rw [dirs' q on] at file
    cases file
  constructor
  · rw [read_congr List.mem_cons_self way dirs' (kept _ (by simp [mem_places_iff])),
      read_congr List.mem_cons_self dirs' dirs unchanged]
    exact FileTree.read_writeOver first
  · rw [read_congr (by simp) way dirs' (kept _ (by simp [mem_places_iff]))]
    exact FileTree.read_writeOver second

end Session

namespace Yaml

/-! What is read of a text that is given by its characters. -/

def Scan.ofChars (cs : List Char) : Scan := ⟨⟨cs, 0, 0, 0⟩, [], 0, -1, [], [], none, true⟩

theorem Scan.ofText_ofList (cs : List Char) : Scan.ofText (.ofList cs) = .ofChars cs := by
  rw [ofText, Cursor.ofText, String.toList_ofList, ofChars]

def tokensOf? (cs : List Char) : Option (List Token) :=
  let cs := if cs.head?.any Scan.isByteOrderMark then cs.tail else cs
  if cs.all isReadable then
    let s := (Scan.ofChars cs).skipMark
    s.run (s.cursor.rest.length + 2)
  else none

theorem tokens?_ofList (cs : List Char) : tokens? (.ofList cs) = tokensOf? cs := by
  simp only [tokens?, tokensOf?, String.toList_ofList, Scan.ofText_ofList]

end Yaml

deriving instance DecidableEq for Interaction, Cassette

namespace Cassette

def chars (c : Cassette) : List Char :=
  Yaml.members 0 [("name", .string c.name), ("recorded_at", .string c.recordedAt.withZulu),
    ("interactions", .array (c.interactions.map Interaction.toJson))]

theorem toText_eq (c : Cassette) : c.toText = .ofList c.chars := rfl

def ofChars? (cs : List Char) : Option Cassette := do
  let n ← Yaml.Node.ofTokens? (← Yaml.tokensOf? cs)
  Yaml.Reading.of? (ofNode n) n.size

theorem ofText?_ofList (cs : List Char) : ofText? (.ofList cs) = ofChars? cs := by
  rw [ofText?, Yaml.Node.ofText?, Yaml.tokens?_ofList, ofChars?, bind_assoc]

/-- What is written of the cassette is read as the same cassette. -/
def Reads (c : Cassette) : Prop := ofText? c.toText = some c

theorem reads_iff {c : Cassette} : c.Reads ↔ ofChars? c.chars = some c := by
  rw [Reads, toText_eq, ofText?_ofList]

instance (c : Cassette) : Decidable c.Reads := decidable_of_iff _ reads_iff.symm

/-- The file at the path has the text of the cassette, which can be read. -/
structure IsAt (c : Cassette) (path : Path) (t : FileTree) : Prop where
  stands : t.read path = .ok c.toText
  reads : c.Reads

end Cassette

namespace Shelf

variable {today : Instant} {w : World}

theorem load_run {path : Path} {c : Cassette} (there : c.IsAt path w.tree) :
    ((World.shelf today).load path).run.run w = (.ok c, w) := by
  have read : ((World.shelf today).read path).run w = (.ok c.toText, w) := by
    rw [← there.stands]
    rfl
  have reads : Cassette.ofText? c.toText = some c := there.reads
  rw [load, run_fetched read]
  simp only [reads]
  rfl

theorem loadAll_loaded {cassettes : List (Path × Cassette)}
    (loaded : ∀ kept ∈ cassettes, ((World.shelf today).load kept.1).run.run w = (.ok kept.2, w)) :
    ((World.shelf today).loadAll (cassettes.map Prod.fst)).run.run w =
      (.ok (cassettes.flatMap fun kept => kept.2.interactions), w) := by
  induction cassettes with
  | nil => rfl
  | cons kept rest ih =>
    rw [List.forall_mem_cons] at loaded
    rw [List.map_cons, loadAll, run_next loaded.1, run_next (ih loaded.2)]
    rfl

theorem loadAll_run {cassettes : List (Path × Cassette)}
    (there : ∀ kept ∈ cassettes, kept.2.IsAt kept.1 w.tree) :
    ((World.shelf today).loadAll (cassettes.map Prod.fst)).run.run w =
      (.ok (cassettes.flatMap fun kept => kept.2.interactions), w) :=
  loadAll_loaded fun kept member => load_run (there kept member)

end Shelf

end Transplant

import DecodeTables.Proofs.Keyed
import DecodeTables.Storage.FileTree

/-!
# What requests do to files

A program on a storage takes one state of the storage to another (`Storage.Ends`). Of a state, a
`Storage.View` shows where paths lead and what the files hold. `View.Documented` is what is assumed of
a storage: reading a file and creating directories change no file, and writing replaces the file that
the path leads to, or changes none if it is refused. File trees are such a storage
(`FileTree.documented`).
-/

namespace DecodeTables

namespace Storage

variable {σ α β Place : Type} {s s' s'' : σ}

/-! ## Runs -/

/-- A program that starts in the state `s` answers `a` and leaves the state `s'`. -/
def Ends (program : StateM σ α) (s : σ) (a : α) (s' : σ) : Prop :=
  program.run s = (a, s')

@[simp]
theorem ends_pure {a b : α} : Ends (pure a) s b s' ↔ a = b ∧ s = s' :=
  Iff.of_eq (Prod.mk.injEq ..)

theorem ends_bind {program : StateM σ α} {next : α → StateM σ β} {b : β} :
    Ends (program >>= next) s b s'' ↔ ∃ a s', Ends program s a s' ∧ Ends (next a) s' b s'' := by
  constructor
  · intro ended
    exact ⟨_, _, rfl, ended⟩
  · rintro ⟨a, s', first, ended⟩
    unfold Ends at *
    rw [StateT.run_bind, first]
    exact ended

/-! ## Views -/

/-- What is seen of the states of a storage. Two paths name the same file if they lead to the same
place. -/
structure View (σ Place : Type) where
  /-- The place that a path leads to. -/
  place? : σ → String → Option Place
  /-- The content of the file at a place. -/
  file? : σ → Place → Option ByteArray

namespace View

variable (v : View σ Place)

/-- What led to a place leads there still, and no file is changed, created or removed. -/
structure Keeps (s s' : σ) : Prop where
  leads : ∀ path p, v.place? s path = some p → v.place? s' path = some p
  files : ∀ p, v.file? s' p = v.file? s p

/-- The file that a path leads to gets a content, and no other file is changed. -/
structure Replaces (path : String) (content : ByteArray) (s s' : σ) : Prop where
  leads : ∀ path p, v.place? s path = some p → v.place? s' path = some p
  replaced : ∃ p, v.place? s' path = some p ∧ v.file? s' p = some content ∧
    ∀ q, q ≠ p → v.file? s' q = v.file? s q

/-- What is assumed of a storage. Directories may be created by a request that fails. -/
structure Documented [Storage (StateM σ)] : Prop where
  isFile : ∀ path s a s', Ends (Storage.isFile path) s a s' → v.Keeps s s'
  readText : ∀ path s a s', Ends (Storage.readText path) s a s' → v.Keeps s s'
  createDirectories : ∀ path s a s', Ends (Storage.createDirectories path) s a s' → v.Keeps s s'
  written : ∀ path text s s', Ends (Storage.writeText path text) s true s' →
    v.Replaces path text.toUTF8 s s'
  refused : ∀ path text s s', Ends (Storage.writeText path text) s false s' → v.Keeps s s'

variable {v}

theorem Keeps.refl (s : σ) : v.Keeps s s := ⟨fun _ _ => id, fun _ => rfl⟩

theorem Keeps.trans (first : v.Keeps s s') (second : v.Keeps s' s'') : v.Keeps s s'' where
  leads path p led := second.leads path p (first.leads path p led)
  files p := (second.files p).trans (first.files p)

/-- A file is replaced as well if other requests, which change none, were made before. -/
theorem Keeps.trans_replaces {path : String} {content : ByteArray} (first : v.Keeps s s')
    (second : v.Replaces path content s' s'') : v.Replaces path content s s'' := by
  obtain ⟨p, led, content, others⟩ := second.replaced
  exact ⟨fun path p led => second.leads path p (first.leads path p led),
    p, led, content, fun q other => (others q other).trans (first.files q)⟩

end View

end Storage

/-! ## File trees -/

namespace FileTree

open Storage

variable {t t' : FileTree} {place q : List String} {node : FileNode}

theorem lookup_set :
    (t.set place node).nodes.lookup q = if q = place then some node else t.nodes.lookup q := by
  unfold set
  split
  · rename_i present
    have change : (fun e : List String × FileNode => if e.1 = place then (place, node) else e) =
        fun e => if e.1 = place then (e.1, node) else e := by
      funext e
      split
      · rename_i own
        rw [own]
      · rfl
    rw [change, lookup_change fun _ => node]
    split
    · rename_i own
      obtain ⟨old, found⟩ := Option.isSome_iff_exists.mp present
      rw [own, found, Option.map_some]
    · rfl
  · rename_i absent
    rw [Option.isSome_iff_ne_none, not_not] at absent
    rw [List.lookup_append]
    split
    · rename_i own
      rw [own, absent, Option.none_or, List.lookup_cons, beq_self_eq_true]
    · rename_i other
      rw [List.lookup_cons, beq_eq_false_iff_ne.mpr other, List.lookup_nil, Option.or_none]

/-- Only places in the tree can get another node. -/
theorem find?_set (inside : isOutside place = false) :
    (t.set place node).find? q = if q = place then some node else t.find? q := by
  unfold find?
  by_cases own : q = place
  · rw [if_pos own, own, inside, if_neg Bool.false_ne_true, lookup_set, if_pos rfl]
  · rw [if_neg own, lookup_set, if_neg own]

theorem isOutside_eq_false (inside : t.find? place ≠ some .directory) : isOutside place = false := by
  unfold find? at inside
  cases outside : isOutside place with
  | false => rfl
  | true =>
    rw [outside, if_pos rfl] at inside
    exact absurd rfl inside

theorem isDirectory_iff : t.isDirectory place ↔ t.find? place = some .directory := by
  unfold isDirectory
  split
  · simp_all
  · simp_all

/-! ### Paths -/

/-- What is a directory stays one. -/
def KeepsDirectories (t t' : FileTree) : Prop :=
  ∀ place, t.find? place = some .directory → t'.find? place = some .directory

theorem walk_of_keepsDirectories (keeps : t.KeepsDirectories t') {names : List String}
    (walked : t.walk place names = some q) : t'.walk place names = some q := by
  induction names generalizing place with
  | nil => exact walked
  | cons piece rest ih =>
    simp only [walk, Option.ite_none_right_eq_some, isDirectory_iff] at walked ⊢
    exact ⟨keeps _ walked.1, ih walked.2⟩

theorem locate?_of_keepsDirectories (keeps : t.KeepsDirectories t') {path : String}
    (led : t.locate? path = some q) : t'.locate? path = some q := by
  unfold locate? at led ⊢
  split at led
  · cases led
  · rename_i isPath
    rw [if_neg isPath]
    dsimp only at led ⊢
    split at led
    · exact led
    · split at led
      · rename_i idle
        rw [if_pos idle]
        exact walk_of_keepsDirectories keeps led
      · rename_i name
        rw [if_neg name]
        obtain ⟨start, walked, end_eq⟩ := Option.map_eq_some_iff.mp led
        exact Option.map_eq_some_iff.mpr ⟨start, walk_of_keepsDirectories keeps walked, end_eq⟩

/-! ### Requests -/

/-- A tree with more directories, where nothing was before. -/
def Extends (t t' : FileTree) : Prop :=
  ∀ place, t'.find? place = t.find? place ∨
    t.find? place = none ∧ t'.find? place = some .directory

theorem Extends.keepsDirectories (extended : t.Extends t') : t.KeepsDirectories t' := by
  intro place isDirectory
  rcases extended place with same | ⟨absent, -⟩
  · rw [same, isDirectory]
  · rw [absent] at isDirectory
    cases isDirectory

theorem extends_set_directory (absent : t.find? place = none) :
    t.Extends (t.set place .directory) := by
  intro q
  have inside : isOutside place = false := isOutside_eq_false (t := t) (by simp [absent])
  rw [find?_set inside]
  by_cases own : q = place
  · rw [if_pos own, own]
    exact .inr ⟨absent, rfl⟩
  · rw [if_neg own]
    exact .inl rfl

theorem Extends.trans {t'' : FileTree} (first : t.Extends t') (second : t'.Extends t'') :
    t.Extends t'' := by
  intro place
  rcases second place with same | ⟨absent, isDirectory⟩
  · rw [same]
    exact first place
  · rcases first place with same | ⟨absent', -⟩
    · exact .inr ⟨same ▸ absent, isDirectory⟩
    · exact .inr ⟨absent', isDirectory⟩

theorem extends_makeAll (names : List String) : t.Extends (t.makeAll place names).2 := by
  induction names generalizing t place with
  | nil => exact fun _ => .inl rfl
  | cons piece rest ih =>
    unfold makeAll
    dsimp only
    split
    · exact ih
    · exact fun _ => .inl rfl
    · rename_i absent
      split
      · exact (extends_set_directory absent).trans ih
      · exact fun _ => .inl rfl

theorem extends_createDirectories (path : String) : t.Extends (t.createDirectories path).2 := by
  unfold createDirectories
  split
  · exact extends_makeAll _
  · exact fun _ => .inl rfl

/-- The content of the file at a place. -/
def file? (t : FileTree) (place : List String) : Option ByteArray :=
  match t.find? place with
  | some (.file content) => some content
  | _ => none

/-- Paths lead to places of a tree, and the nodes there are files or not. -/
def view : View FileTree (List String) where
  place? := locate?
  file? := file?

theorem Extends.keeps (extended : t.Extends t') : view.Keeps t t' where
  leads _ _ led := locate?_of_keepsDirectories extended.keepsDirectories led
  files place := by
    change t'.file? place = t.file? place
    unfold file?
    rcases extended place with same | ⟨absent, isDirectory⟩
    · rw [same]
    · rw [absent, isDirectory]

theorem replaces_set {path : String} {content : ByteArray} (led : t.locate? path = some place)
    (file : t.find? place ≠ some .directory) :
    view.Replaces path content t (t.set place (.file content)) := by
  have inside := isOutside_eq_false file
  have keeps : t.KeepsDirectories (t.set place (.file content)) := by
    intro q isDirectory
    have other : q ≠ place := fun own => file (own ▸ isDirectory)
    rw [find?_set inside, if_neg other, isDirectory]
  refine ⟨fun _ _ => locate?_of_keepsDirectories keeps, place,
    locate?_of_keepsDirectories keeps led, ?_, fun q other => ?_⟩
  · change file? _ place = some content
    unfold file?
    rw [find?_set inside, if_pos rfl]
  · change file? _ q = file? _ q
    unfold file?
    rw [find?_set inside, if_neg other]

theorem write_cases (path : String) (content : ByteArray) :
    (t.write path content).1 = true ∧ view.Replaces path content t (t.write path content).2 ∨
      t.write path content = (false, t) := by
  unfold write
  split
  · exact .inr rfl
  · rename_i place led
    split
    · exact .inr rfl
    · rename_i old found
      exact .inl ⟨rfl, replaces_set led (by simp [found])⟩
    · rename_i absent
      split
      · exact .inl ⟨rfl, replaces_set led (by simp [absent])⟩
      · exact .inr rfl

/-- File trees meet what is assumed of a storage. -/
theorem documented : view.Documented where
  isFile path s a s' ended := by
    obtain ⟨-, rfl⟩ := Prod.mk.inj ended
    exact .refl s
  readText path s a s' ended := by
    obtain ⟨-, rfl⟩ := Prod.mk.inj ended
    exact .refl s
  createDirectories path s a s' ended := by
    have left : (s.createDirectories path).2 = s' := congrArg Prod.snd ended
    exact left ▸ (extends_createDirectories path).keeps
  written path text s s' ended := by
    have ended : s.write path text.toUTF8 = (true, s') := ended
    rcases write_cases (t := s) path text.toUTF8 with ⟨-, replaced⟩ | refused
    · rw [ended] at replaced
      exact replaced
    · rw [ended] at refused
      cases refused
  refused path text s s' ended := by
    have ended : s.write path text.toUTF8 = (false, s') := ended
    rcases write_cases (t := s) path text.toUTF8 with ⟨accepted, -⟩ | refused
    · rw [ended] at accepted
      cases accepted
    · rw [ended] at refused
      obtain ⟨-, rfl⟩ := Prod.mk.inj refused
      exact .refl _

end FileTree

end DecodeTables

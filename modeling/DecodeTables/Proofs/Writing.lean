import DecodeTables.CommandLine.Run
import DecodeTables.Proofs.Storage
import DecodeTables.Proofs.Table
import Mathlib

/-!
# What writing artifacts leaves

One output either replaces the file that its path leads to, or fails and changes no file
(`WriteEffect`). A run over outputs is a run over the first of them and then over the rest, and it
ends with the first failure (`ends_writeEach_append`). So a successful run leaves in each file the last
source that was written to it (`written_of_ends`), and a failure at an output leaves the files as the
run over the outputs before it left them.
-/

namespace DecodeTables

namespace Artifact

open Storage

variable {σ Place : Type} {v : View σ Place} {t : Table} {options : Options} {artifact : Artifact}
  {path : String} {outputs before after : List (Artifact × String)}
  {output : Artifact × String} {s s' middle : σ} {r : Except WriteFailure Unit} {e : WriteFailure}

/-! ## One output -/

theorem render_eq_error_iff {u : Unsupported} : render t artifact options = .error u ↔
    options.target = .rust ∧ artifact = .executor ∧ u = ⟨.rust, .executor⟩ := by
  unfold render
  cases options.target <;> cases artifact <;> simp [eq_comm]

/-- What writing one artifact can do: its answer, and what became of the files. -/
inductive WriteEffect (v : View σ Place) (t : Table) (options : Options) (artifact : Artifact)
    (path : String) (s s' : σ) : Except WriteFailure Unit → Prop
  | unsupported (u : Unsupported) (rendered : render t artifact options = .error u)
      (same : s' = s) : WriteEffect v t options artifact path s s' (.error (.unsupported u))
  | directory (source : Source) (rendered : render t artifact options = .ok source)
      (directory : String) (keeps : v.Keeps s s') :
      WriteEffect v t options artifact path s s' (.error (.directory directory))
  | file (source : Source) (rendered : render t artifact options = .ok source)
      (keeps : v.Keeps s s') : WriteEffect v t options artifact path s s' (.error (.file path))
  | written (source : Source) (rendered : render t artifact options = .ok source)
      (replaced : v.Replaces path source.text.toUTF8 s s') :
      WriteEffect v t options artifact path s s' (.ok ())

theorem WriteEffect.keeps (effect : WriteEffect v t options artifact path s s' (.error e)) :
    v.Keeps s s' := by
  cases effect with
  | unsupported u rendered same =>
    subst same
    exact .refl _
  | directory source rendered directory keeps => exact keeps
  | file source rendered keeps => exact keeps

/-- Only the executors in Rust are not made, and then nothing at all is done. -/
theorem WriteEffect.unsupported_iff
    (effect : WriteEffect v t options artifact path s s' (.error e)) :
    (∃ u, e = .unsupported u) ↔ options.target = .rust ∧ artifact = .executor := by
  have made {source : Source} (rendered : render t artifact options = .ok source) :
      ¬ (options.target = .rust ∧ artifact = .executor) := by
    rintro ⟨target, executor⟩
    rw [render_eq_error_iff.mpr ⟨target, executor, rfl⟩] at rendered
    cases rendered
  cases effect with
  | unsupported u rendered same =>
    obtain ⟨target, executor, -⟩ := render_eq_error_iff.mp rendered
    exact iff_of_true ⟨u, rfl⟩ ⟨target, executor⟩
  | directory source rendered directory keeps => exact iff_of_false (by simp) (made rendered)
  | file source rendered keeps => exact iff_of_false (by simp) (made rendered)

variable [Storage (StateM σ)]

theorem makeParent_cases (documented : v.Documented) (ended : Ends (makeParent path) s r s') :
    v.Keeps s s' ∧ (r = .ok () ∨ ∃ directory, r = .error (.directory directory)) := by
  unfold makeParent at ended
  split at ended
  · obtain ⟨rfl, rfl⟩ := ends_pure.mp ended
    exact ⟨.refl s, .inl rfl⟩
  · obtain ⟨rfl, rfl⟩ := ends_pure.mp ended
    exact ⟨.refl s, .inl rfl⟩
  · rename_i directory _ _
    obtain ⟨made, left, requested, ended⟩ := ends_bind.mp ended
    have keeps := documented.createDirectories _ _ _ _ requested
    cases made with
    | false =>
      obtain ⟨rfl, rfl⟩ := ends_pure.mp ended
      exact ⟨keeps, .inr ⟨directory, rfl⟩⟩
    | true =>
      obtain ⟨rfl, rfl⟩ := ends_pure.mp ended
      exact ⟨keeps, .inl rfl⟩

theorem writeEffect_of_ends (documented : v.Documented)
    (ended : Ends (write t options artifact path) s r s') :
    WriteEffect v t options artifact path s s' r := by
  unfold write at ended
  cases rendered : render t artifact options with
  | error u =>
    rw [rendered] at ended
    obtain ⟨rfl, rfl⟩ := ends_pure.mp ended
    exact .unsupported u rendered rfl
  | ok source =>
    rw [rendered] at ended
    obtain ⟨parent, left, made, ended⟩ := ends_bind.mp ended
    obtain ⟨keeps, rfl | ⟨directory, rfl⟩⟩ := makeParent_cases documented made
    · obtain ⟨accepted, left', requested, ended⟩ := ends_bind.mp ended
      cases accepted with
      | false =>
        obtain ⟨rfl, rfl⟩ := ends_pure.mp ended
        exact .file source rendered (keeps.trans (documented.refused _ _ _ _ requested))
      | true =>
        obtain ⟨rfl, rfl⟩ := ends_pure.mp ended
        exact .written source rendered
          (keeps.trans_replaces (documented.written _ _ _ _ requested))
    · obtain ⟨rfl, rfl⟩ := ends_pure.mp ended
      exact .directory source rendered directory keeps

/-! ## Outputs one after the other -/

theorem ends_writeEach_cons : Ends (writeEach t options (output :: after)) s r s' ↔
    (∃ e, r = .error e ∧ Ends (write t options output.1 output.2) s (.error e) s') ∨
    ∃ middle, Ends (write t options output.1 output.2) s (.ok ()) middle ∧
      Ends (writeEach t options after) middle r s' := by
  rw [writeEach, ends_bind]
  constructor
  · rintro ⟨e | u, middle, first, rest⟩
    · obtain ⟨rfl, rfl⟩ := ends_pure.mp rest
      exact .inl ⟨e, rfl, first⟩
    · exact .inr ⟨middle, first, rest⟩
  · rintro (⟨e, rfl, failed⟩ | ⟨middle, first, rest⟩)
    · exact ⟨.error e, s', failed, ends_pure.mpr ⟨rfl, rfl⟩⟩
    · exact ⟨.ok (), middle, first, rest⟩

/-- Outputs are written in order, up to the first failure. -/
theorem ends_writeEach_append : Ends (writeEach t options (before ++ after)) s r s' ↔
    (∃ e, r = .error e ∧ Ends (writeEach t options before) s (.error e) s') ∨
    ∃ middle, Ends (writeEach t options before) s (.ok ()) middle ∧
      Ends (writeEach t options after) middle r s' := by
  induction before generalizing s with
  | nil => simp [writeEach]
  | cons output before ih =>
    simp only [List.cons_append, ends_writeEach_cons, ih]
    constructor
    · rintro (⟨e, rfl, failed⟩ | ⟨first, written, ⟨e, rfl, failed⟩ | ⟨middle, rest, last⟩⟩)
      · exact .inl ⟨e, rfl, .inl ⟨e, rfl, failed⟩⟩
      · exact .inl ⟨e, rfl, .inr ⟨first, written, failed⟩⟩
      · exact .inr ⟨middle, .inr ⟨first, written, rest⟩, last⟩
    · rintro (⟨e, rfl, ⟨e', same, failed⟩ | ⟨first, written, failed⟩⟩ |
        ⟨middle, ⟨e, failed, -⟩ | ⟨first, written, rest⟩, last⟩)
      · cases same
        exact .inl ⟨e, rfl, failed⟩
      · exact .inr ⟨first, written, .inl ⟨e, rfl, failed⟩⟩
      · cases failed
      · exact .inr ⟨first, written, .inr ⟨middle, rest, last⟩⟩

/-- The last of the outputs whose path leads to a place. -/
def IsLastAt (v : View σ Place) (s : σ) (p : Place) (outputs : List (Artifact × String))
    (output : Artifact × String) : Prop :=
  ∃ before after, outputs = before ++ output :: after ∧ v.place? s output.2 = some p ∧
    ∀ later ∈ after, v.place? s later.2 ≠ some p

/-- What a run over outputs leaves if it succeeds. Paths are taken for the same if they lead to the
same place in the end, however they are written. -/
structure Written (v : View σ Place) (t : Table) (options : Options)
    (outputs : List (Artifact × String)) (s s' : σ) : Prop where
  leads : ∀ path p, v.place? s path = some p → v.place? s' path = some p
  /-- The file of every output holds the source of the last output for this file. -/
  last : ∀ output ∈ outputs, ∃ p final source, v.place? s' output.2 = some p ∧
    IsLastAt v s' p outputs final ∧ render t final.1 options = .ok source ∧
      v.file? s' p = some source.text.toUTF8
  /-- No other file is changed, created or removed. -/
  others : ∀ p, (∀ output ∈ outputs, v.place? s' output.2 ≠ some p) → v.file? s' p = v.file? s p

theorem written_of_ends (documented : v.Documented)
    (ended : Ends (writeEach t options outputs) s (.ok ()) s') :
    Written v t options outputs s s' := by
  induction outputs generalizing s with
  | nil =>
    obtain ⟨-, rfl⟩ := ends_pure.mp ended
    exact ⟨fun _ _ => id, fun _ listed => absurd listed List.not_mem_nil, fun _ _ => rfl⟩
  | cons output outputs ih =>
    obtain ⟨e, failed, -⟩ | ⟨middle, first, rest⟩ := ends_writeEach_cons.mp ended
    · cases failed
    have written := ih rest
    cases writeEffect_of_ends documented first with | written source rendered replaced
    obtain ⟨p, led, content, same⟩ := replaced.replaced
    have led' := written.leads _ _ led
    refine ⟨fun path q at_start => written.leads path q (replaced.leads path q at_start),
      fun other listed => ?_, fun q apart => ?_⟩
    · -- Either a later output writes to the file of `other` again, or `other` is `output` itself.
      by_cases again : ∃ later ∈ outputs, v.place? s' later.2 = v.place? s' other.2
      · obtain ⟨later, listed', alike⟩ := again
        obtain ⟨q, final, source, led, ⟨before, after, parts, last⟩, held⟩ :=
          written.last later listed'
        exact ⟨q, final, source, alike ▸ led,
          ⟨output :: before, after, by rw [parts, List.cons_append], last⟩, held⟩
      · rcases List.mem_cons.mp listed with rfl | listed'
        · have last : ∀ later ∈ outputs, v.place? s' later.2 ≠ some p := fun later listed' alike =>
            again ⟨later, listed', alike.trans led'.symm⟩
          exact ⟨p, other, source, led', ⟨[], outputs, rfl, led', last⟩, rendered,
            (written.others p last).trans content⟩
        · exact absurd ⟨other, listed', rfl⟩ again
    · obtain ⟨ne, apart⟩ := List.forall_mem_cons.mp apart
      have other : q ≠ p := fun own => ne (own ▸ led')
      exact (written.others q apart).trans (same q other)

/-- An output is the first that fails: the run over those before it succeeds and leaves the state
`middle`, in which this one fails. -/
structure FailsAfter (t : Table) (options : Options) (before : List (Artifact × String))
    (output : Artifact × String) (s middle s' : σ) (e : WriteFailure) : Prop where
  succeeds : Ends (writeEach t options before) s (.ok ()) middle
  fails : Ends (write t options output.1 output.2) middle (.error e) s'

theorem FailsAfter.ends (failed : FailsAfter t options before output s middle s' e)
    (after : List (Artifact × String)) :
    Ends (writeEach t options (before ++ output :: after)) s (.error e) s' :=
  ends_writeEach_append.mpr
    (.inr ⟨middle, failed.succeeds, ends_writeEach_cons.mpr (.inl ⟨e, rfl, failed.fails⟩)⟩)

theorem ends_error_iff : Ends (writeEach t options outputs) s (.error e) s' ↔
    ∃ before output after middle, outputs = before ++ output :: after ∧
      FailsAfter t options before output s middle s' e := by
  constructor
  · intro ended
    induction outputs generalizing s with
    | nil =>
      obtain ⟨failed, -⟩ := ends_pure.mp ended
      cases failed
    | cons output outputs ih =>
      obtain ⟨e', same, failed⟩ | ⟨middle, first, rest⟩ := ends_writeEach_cons.mp ended
      · cases same
        exact ⟨[], output, outputs, s, rfl, ends_pure.mpr ⟨rfl, rfl⟩, failed⟩
      · obtain ⟨before, output', after, middle', rfl, failed⟩ := ih rest
        exact ⟨output :: before, output', after, middle', rfl,
          ends_writeEach_cons.mpr (.inr ⟨middle, first, failed.succeeds⟩), failed.fails⟩
  · rintro ⟨before, output, after, middle, rfl, failed⟩
    exact failed.ends after

/-- What a failure at an output leaves, after a run over the outputs before it that left `middle`. -/
structure Stopped (v : View σ Place) (t : Table) (options : Options)
    (before : List (Artifact × String)) (output : Artifact × String) (s middle s' : σ)
    (e : WriteFailure) : Prop where
  /-- The outputs before are written. -/
  written : Written v t options before s middle
  /-- The output that fails changes no file. -/
  keeps : v.Keeps middle s'
  /-- The outputs after it, whichever they are, do nothing. -/
  later : ∀ after, Ends (writeEach t options (before ++ output :: after)) s (.error e) s'
  unsupported : (∃ u, e = .unsupported u) ↔ options.target = .rust ∧ output.1 = .executor
  /-- For executors in Rust nothing is created, no directory either. -/
  untouched : options.target = .rust → output.1 = .executor → s' = middle

theorem FailsAfter.stopped (documented : v.Documented)
    (failed : FailsAfter t options before output s middle s' e) :
    Stopped v t options before output s middle s' e := by
  have effect := writeEffect_of_ends documented failed.fails
  refine ⟨written_of_ends documented failed.succeeds, effect.keeps, failed.ends,
    effect.unsupported_iff, fun target executor => ?_⟩
  obtain ⟨u, rfl⟩ := effect.unsupported_iff.mpr ⟨target, executor⟩
  cases effect with | unsupported u rendered same
  exact same

/-! ## Generating -/

open CommandLine

variable {arguments : List String} {order : TrialOrder} {description : String}

theorem keeps_of_load (documented : v.Documented) {loaded : Except LoadFailure Table}
    (ended : Ends (Table.load order path) s loaded s') : v.Keeps s s' := by
  unfold Table.load at ended
  obtain ⟨isFile, left, asked, ended⟩ := ends_bind.mp ended
  have first := documented.isFile _ _ _ _ asked
  cases isFile with
  | false =>
    obtain ⟨-, rfl⟩ := ends_pure.mp ended
    exact first
  | true =>
    obtain ⟨read, left', loading, ended⟩ := ends_bind.mp ended
    obtain ⟨text, left'', reading, parsed⟩ := ends_bind.mp loading
    have second := first.trans (documented.readText _ _ _ _ reading)
    have parsing : left'' = left' := by
      cases text with
      | none => exact (ends_pure.mp parsed).2
      | some text => exact (ends_pure.mp parsed).2
    have building : left' = s' := by
      split at ended
      · exact (ends_pure.mp ended).2
      · split at ended
        · exact (ends_pure.mp ended).2
        · exact (ends_pure.mp ended).2
    exact building ▸ parsing ▸ second

/-- A run of the command loads the table and then writes the artifacts of it. -/
theorem ends_run_generate {outcome : Outcome}
    (parsed : parse arguments = .ok (.generate description order outputs options)) :
    Ends (run arguments) s outcome s' ↔
    (∃ e, outcome = .failure "" e.causes ∧ Ends (Table.load order description) s (.error e) s') ∨
    ∃ t middle r, Ends (Table.load order description) s (.ok t) middle ∧
      Ends (writeAll t options outputs) middle r s' ∧
      (r = .ok () ∧ outcome = .success "" ∨
        ∃ e, r = .error e ∧ outcome = .failure "" e.causes) := by
  unfold run
  rw [parsed]
  dsimp only [runCommand, withTable]
  rw [ends_bind]
  constructor
  · rintro ⟨e | t, middle, loaded, ended⟩
    · obtain ⟨rfl, rfl⟩ := ends_pure.mp ended
      exact .inl ⟨e, rfl, loaded⟩
    · obtain ⟨r, left, written, ended⟩ := ends_bind.mp ended
      refine .inr ⟨t, middle, r, loaded, ?_⟩
      cases r with
      | error e =>
        obtain ⟨rfl, rfl⟩ := ends_pure.mp ended
        exact ⟨written, .inr ⟨e, rfl, rfl⟩⟩
      | ok done =>
        obtain ⟨rfl, rfl⟩ := ends_pure.mp ended
        exact ⟨written, .inl ⟨rfl, rfl⟩⟩
  · rintro (⟨e, rfl, loaded⟩ | ⟨t, middle, r, loaded, written, ended⟩)
    · exact ⟨_, _, loaded, ends_pure.mpr ⟨rfl, rfl⟩⟩
    · refine ⟨_, _, loaded, ends_bind.mpr ⟨r, s', written, ?_⟩⟩
      obtain ⟨rfl, rfl⟩ | ⟨e, rfl, rfl⟩ := ended
      · exact ends_pure.mpr ⟨rfl, rfl⟩
      · exact ends_pure.mpr ⟨rfl, rfl⟩

/-- Writing no artifact fails and does nothing. A run that succeeds leaves in each file the last source
for it and changes no other file. A run that fails does so at the first output that fails: the files
are as the run over the outputs before it left them, and the outputs after it do nothing. The command
line adds no effect of its own, and changes no file if there is no table of the description. -/
theorem writeAll_exact (documented : v.Documented) (t : Table) (options : Options)
    (outputs : List (Artifact × String)) (s : σ) :
    Ends (writeAll t options []) s (.error .nothing) s ∧
    (∀ s', Ends (writeAll t options outputs) s (.ok ()) s' →
      outputs ≠ [] ∧ Written v t options outputs s s') ∧
    (∀ e s', outputs ≠ [] → (Ends (writeAll t options outputs) s (.error e) s' ↔
      ∃ before output after middle, outputs = before ++ output :: after ∧
        FailsAfter t options before output s middle s' e)) ∧
    (∀ before output middle s' e, FailsAfter t options before output s middle s' e →
      Stopped v t options before output s middle s' e) ∧
    ∀ arguments description order,
      parse arguments = .ok (.generate description order outputs options) →
      (∀ e s', Ends (Table.load order description) s (.error e) s' →
        Ends (run arguments) s (.failure "" e.causes) s' ∧ v.Keeps s s') ∧
      ∀ t middle, Ends (Table.load order description) s (.ok t) middle → v.Keeps s middle ∧
        (∀ s', Ends (writeAll t options outputs) middle (.ok ()) s' →
          Ends (run arguments) s (.success "") s') ∧
        ∀ e s', Ends (writeAll t options outputs) middle (.error e) s' →
          Ends (run arguments) s (.failure "" e.causes) s' := by
  have ends_writeAll {r : Except WriteFailure Unit} {s' : σ} (nonempty : outputs ≠ []) :
      Ends (writeAll t options outputs) s r s' ↔ Ends (writeEach t options outputs) s r s' := by
    rw [writeAll, if_neg (by simpa using nonempty)]
  refine ⟨ends_pure.mpr ⟨rfl, rfl⟩, fun s' ended => ?_, fun e s' nonempty => ?_,
    fun before output middle s' e failed => failed.stopped documented,
    fun arguments description order parsed => ⟨fun e s' loaded => ?_, fun t middle loaded => ?_⟩⟩
  · have nonempty : outputs ≠ [] := by
      rintro rfl
      obtain ⟨failed, -⟩ := ends_pure.mp ended
      cases failed
    exact ⟨nonempty, written_of_ends documented ((ends_writeAll nonempty).mp ended)⟩
  · exact (ends_writeAll nonempty).trans ends_error_iff
  · exact ⟨(ends_run_generate parsed).mpr (.inl ⟨e, rfl, loaded⟩), keeps_of_load documented loaded⟩
  · refine ⟨keeps_of_load documented loaded, fun s' written => ?_, fun e s' failed => ?_⟩
    · exact (ends_run_generate parsed).mpr
        (.inr ⟨t, middle, _, loaded, written, .inl ⟨rfl, rfl⟩⟩)
    · exact (ends_run_generate parsed).mpr
        (.inr ⟨t, middle, _, loaded, failed, .inr ⟨e, rfl, rfl⟩⟩)

/-- Two outputs for one file under two names of it, one that is not made, and one after it. -/
def sampleOutputs : List (Artifact × String) :=
  [(.identifiers, "a"), (.decoder, "./a"), (.executor, "new/b"), (.decoder, "c")]

/-- A command for an artifact of a description that is not there. -/
def sampleCommand : List String := ["generate", "d", "--enum", "a"]

/-- Of the two sources for one file the later one stays, and neither the directory of the artifact that
is not made nor the file after it is created. A command whose description is not there says so and
creates nothing. -/
theorem writeAll_exact_executor : ∃ t source,
    Table.ofInstructions .specificity Overlapping.instructions = .ok t ∧
    render t .decoder { target := .rust } = .ok source ∧
    Ends (writeAll t { target := .rust } sampleOutputs) (⟨[]⟩ : FileTree)
      (.error (.unsupported ⟨.rust, .executor⟩)) ⟨[(["a"], .file source.text.toUTF8)]⟩ ∧
    Written FileTree.view t { target := .rust } (sampleOutputs.take 2) ⟨[]⟩
      ⟨[(["a"], .file source.text.toUTF8)]⟩ ∧
    Ends (run sampleCommand) (⟨[]⟩ : FileTree) (.failure "" (LoadFailure.notFile "d").causes) ⟨[]⟩ ∧
    FileTree.view.Keeps ⟨[]⟩ ⟨[]⟩ := by
  obtain ⟨t, built⟩ := Overlapping.exists_table
  have made (artifact : Artifact) (other : artifact ≠ .executor) :
      ∃ source, render t artifact { target := .rust } = .ok source := by
    cases rendered : render t artifact { target := .rust } with
    | ok source => exact ⟨source, rfl⟩
    | error u => exact absurd (render_eq_error_iff.mp rendered).2.1 other
  obtain ⟨first, rendered⟩ := made .identifiers (by decide)
  obtain ⟨source, rendered'⟩ := made .decoder (by decide)
  have new : Ends (write t { target := .rust } .identifiers "a") (⟨[]⟩ : FileTree) (.ok ())
      ⟨[(["a"], .file first.text.toUTF8)]⟩ := by
    unfold write Ends
    rw [rendered]
    cbv
  have again : Ends (write t { target := .rust } .decoder "./a")
      (⟨[(["a"], .file first.text.toUTF8)]⟩ : FileTree) (.ok ())
      ⟨[(["a"], .file source.text.toUTF8)]⟩ := by
    unfold write Ends
    rw [rendered']
    cbv
  have failed : FailsAfter t { target := .rust } (sampleOutputs.take 2) (.executor, "new/b")
      (⟨[]⟩ : FileTree) ⟨[(["a"], .file source.text.toUTF8)]⟩ ⟨[(["a"], .file source.text.toUTF8)]⟩
      (.unsupported ⟨.rust, .executor⟩) :=
    ⟨ends_writeEach_cons.mpr (.inr ⟨_, new, ends_writeEach_cons.mpr (.inr ⟨_, again, rfl⟩)⟩), rfl⟩
  have parsed : parse sampleCommand =
      .ok (.generate "d" .specificity [(.identifiers, "a")] {}) := by cbv
  have missing : Ends (Table.load .specificity "d") (⟨[]⟩ : FileTree) (.error (.notFile "d")) ⟨[]⟩ := by
    unfold Ends
    cbv
  obtain ⟨-, -, stops, stopped, -⟩ := writeAll_exact FileTree.documented t { target := .rust }
    sampleOutputs ⟨[]⟩
  obtain ⟨-, -, -, -, command⟩ := writeAll_exact FileTree.documented t {} [(.identifiers, "a")] ⟨[]⟩
  obtain ⟨unloaded, -⟩ := command _ _ _ parsed
  exact ⟨t, source, built, rendered', (stops _ _ (List.cons_ne_nil _ _)).mpr
    ⟨_, _, _, _, rfl, failed⟩, (stopped _ _ _ _ _ failed).written, unloaded _ _ missing⟩

end Artifact

end DecodeTables

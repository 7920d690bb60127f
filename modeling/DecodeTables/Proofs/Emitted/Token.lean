import DecodeTables.Artifact.Basic
import Mathlib.Data.String.Basic

/-!
# Tokens of emitted sources

What a compiler sees of a source: its words and marks. `tokens` reads them off the text, without the
blanks and the comments. The tokens of a line do not depend on the lines around it
(`tokens_unlines`), and those of a line follow part by part: a fixed part is evaluated
(`scan_append_of_spells`), and a word that varies is one token, whatever it is (`scan_word`).
-/

namespace DecodeTables.Emitted

/-- A name, keyword or number, or a single character that is none of them. -/
inductive Token where
  | word (text : String)
  | mark (c : Char)
  deriving DecidableEq, Repr

/-- Where a scanner stands. The characters of a word are kept until it ends. -/
inductive Place where
  | between
  | word (characters : List Char)
  | slash
  | comment
  deriving DecidableEq, Repr

def isWordChar (c : Char) : Bool := c.isAlphanum || c == '_'

namespace Place

/-- The tokens that are complete when nothing else follows. -/
def finish : Place → List Token
  | word characters => [.word (String.ofList characters)]
  | slash => [.mark '/']
  | between | comment => []

/-- Begins a token. -/
def start (c : Char) : List Token × Place :=
  if isWordChar c then ([], word [c])
  else if c.isWhitespace then ([], between)
  else if c = '/' then ([], slash)
  else ([.mark c], between)

/-- The tokens that a character completes, and where it leaves the scanner. -/
def step : Place → Char → List Token × Place
  | between, c => start c
  | word characters, c =>
    if isWordChar c then ([], word (characters ++ [c]))
    else (.word (String.ofList characters) :: (start c).1, (start c).2)
  | slash, c => if c = '/' then ([], comment) else (.mark '/' :: (start c).1, (start c).2)
  | comment, c => ([], if c = '\n' then between else comment)

end Place

/-- The tokens of characters that are scanned from the given place. -/
def scan (place : Place) : List Char → List Token
  | [] => place.finish
  | c :: rest =>
    match place.step c with
    | (completed, next) => completed ++ scan next rest

def tokens (text : String) : List Token := scan .between text.toList

/-- The tokens of a literal are evaluated from its characters, not from its bytes. -/
theorem tokens_ofList (characters : List Char) :
    tokens (String.ofList characters) = scan .between characters := by
  rw [tokens, String.toList_ofList]

/-- Where characters leave a scanner. -/
def after (place : Place) (characters : List Char) : Place :=
  characters.foldl (fun place c => (place.step c).2) place

/-- The characters are the tokens, whatever stands behind them. -/
def Spells (characters : List Char) (spelled : List Token) : Prop :=
  after .between characters = .between ∧ scan .between characters = spelled

instance (characters : List Char) (spelled : List Token) : Decidable (Spells characters spelled) :=
  inferInstanceAs (Decidable (after .between characters = .between ∧
    scan .between characters = spelled))

/-- The text is one token, unless a further character of a word stands behind it. -/
def IsWord (text : String) : Prop := text.toList ≠ [] ∧ ∀ c ∈ text.toList, isWordChar c = true

instance (text : String) : Decidable (IsWord text) :=
  decidable_of_iff (text.toList ≠ [] ∧ text.toList.all isWordChar = true)
    (and_congr_right fun _ => List.all_eq_true)

/-! ## Parts -/

variable {place : Place} {c : Char} {characters rest : List Char} {spelled : List Token}

theorem scan_cons : scan place (c :: rest) =
    (place.step c).1 ++ scan (place.step c).2 rest :=
  rfl

/-- A character behind which a token begins anew does not change what stands in front of it. -/
theorem scan_append
    (ends : (after place characters).step c =
      ((after place characters).finish ++ (Place.start c).1, (Place.start c).2)) :
    scan place (characters ++ c :: rest) = scan place characters ++ scan .between (c :: rest) := by
  induction characters generalizing place with
  | nil =>
    have first : place.step c = (place.finish ++ (Place.start c).1, (Place.start c).2) := ends
    rw [List.nil_append, scan_cons, first]
    exact List.append_assoc _ _ _
  | cons d characters ih =>
    rw [List.cons_append, scan_cons, scan_cons, ih ends, List.append_assoc]

theorem after_append : after place (characters ++ rest) = after (after place characters) rest :=
  List.foldl_append

theorem scan_append_of_spells (known : Spells characters spelled) :
    scan .between (characters ++ rest) = spelled ++ scan .between rest := by
  obtain ⟨closed, rfl⟩ := known
  cases rest with
  | nil =>
    rw [List.append_nil]
    exact (List.append_nil _).symm
  | cons c rest =>
    refine scan_append ?_
    rw [closed]
    rfl

theorem after_word (read : List Char) (inWord : ∀ c ∈ characters, isWordChar c = true) :
    after (.word read) characters = .word (read ++ characters) ∧
      scan (.word read) characters = [.word (String.ofList (read ++ characters))] := by
  induction characters generalizing read with
  | nil => rw [List.append_nil]; exact ⟨rfl, rfl⟩
  | cons c characters ih =>
    rw [List.forall_mem_cons] at inWord
    have step : (Place.word read).step c = ([], .word (read ++ [c])) := if_pos inWord.1
    obtain ⟨place, scanned⟩ := ih (read ++ [c]) inWord.2
    rw [List.append_cons, ← place, ← scanned, after, List.foldl_cons, scan_cons, step]
    exact ⟨rfl, rfl⟩

/-- A word that is scanned is kept until it ends. -/
theorem after_isWord {text : String} (isWord : IsWord text) :
    after .between text.toList = .word text.toList ∧
      scan .between text.toList = [.word text] := by
  obtain ⟨nonempty, inWord⟩ := isWord
  obtain ⟨first, later, characters⟩ := List.exists_cons_of_ne_nil nonempty
  rw [characters, List.forall_mem_cons] at inWord
  have start : Place.between.step first = ([], .word [first]) := if_pos inWord.1
  obtain ⟨place, scanned⟩ := after_word [first] inWord.2
  constructor
  · rw [characters, after, List.foldl_cons, start]
    exact place
  · rw [characters, scan_cons, start, scanned, List.singleton_append, ← characters,
      String.ofList_toList, List.nil_append]

theorem scan_word {text : String} (isWord : IsWord text) (ends : isWordChar c = false) :
    scan .between (text.toList ++ c :: rest) = .word text :: scan .between (c :: rest) := by
  obtain ⟨place, scanned⟩ := after_isWord isWord
  rw [scan_append, scanned, List.singleton_append]
  rw [place, Place.step, ends, if_neg Bool.false_ne_true]
  rfl

/-! ## Lines -/

/-- A line feed ends a token and a comment. -/
theorem step_newline (place : Place) : place.step '\n' = (place.finish, .between) := by
  cases place <;> rfl

theorem scan_newline : scan place (characters ++ '\n' :: rest) =
    scan place characters ++ scan .between rest := by
  refine scan_append ?_
  rw [step_newline, show Place.start '\n' = ([], .between) from rfl, List.append_nil]

theorem unlines_cons (first : String) (lines : List String) :
    Artifact.unlines (first :: lines) = first ++ ("\n" ++ Artifact.unlines lines) := by
  apply String.toList_injective
  simp [Artifact.unlines]

theorem unlines_append (front later : List String) :
    Artifact.unlines (front ++ later) = Artifact.unlines front ++ Artifact.unlines later := by
  simp [Artifact.unlines]

theorem tokens_unlines (lines : List String) :
    tokens (Artifact.unlines lines) = lines.flatMap tokens := by
  induction lines with
  | nil => rfl
  | cons first lines ih =>
    rw [List.flatMap_cons, ← ih, tokens, unlines_cons, String.toList_append, String.toList_append]
    exact scan_newline

/-! ## Layout -/

theorem spells_blanks (count : Nat) : Spells (List.replicate count ' ') [] := by
  induction count with
  | zero => exact ⟨rfl, rfl⟩
  | succ count ih =>
    rw [List.replicate_succ]
    exact ih

theorem toList_indent (level : Nat) (line : String) :
    (Artifact.indent level line).toList = List.replicate (4 * level) ' ' ++ line.toList := by
  simp [Artifact.indent]

theorem tokens_indent (level : Nat) (line : String) :
    tokens (Artifact.indent level line) = tokens line := by
  rw [tokens, toList_indent, scan_append_of_spells (spells_blanks _)]
  rfl

theorem scan_separator (rest : List Char) :
    scan .between (',' :: ' ' :: rest) = .mark ',' :: scan .between rest :=
  scan_append_of_spells (by decide : Spells [',', ' '] [.mark ','])

/-! ## Texts put together -/

/-- The text is the tokens, unless a further character of a word stands behind it. -/
structure IsSpelled (text : String) (spelled : List Token) : Prop where
  scan_eq : ∀ {c : Char}, isWordChar c = false → ∀ rest,
    scan .between (text.toList ++ c :: rest) = spelled ++ scan .between (c :: rest)

theorem IsWord.isSpelled {text : String} (isWord : IsWord text) :
    IsSpelled text [.word text] :=
  ⟨fun ends _ => scan_word isWord ends⟩

theorem Spells.isSpelled {text : String} (known : Spells text.toList spelled) :
    IsSpelled text spelled :=
  ⟨fun _ _ => scan_append_of_spells known⟩

namespace IsSpelled

variable {front text : String} {first : List Token}

theorem append_of_spells (known : Spells front.toList first) (behind : IsSpelled text spelled) :
    IsSpelled (front ++ text) (first ++ spelled) := by
  refine ⟨fun ends rest => ?_⟩
  rw [String.toList_append, List.append_assoc, scan_append_of_spells known, behind.scan_eq ends,
    List.append_assoc]

/-- A text may end in a word if the next one does not begin with a character of a word. -/
theorem append (before : IsSpelled front first) (behind : IsSpelled text spelled)
    (begins : ∃ c ∈ text.toList.head?, isWordChar c = false) :
    IsSpelled (front ++ text) (first ++ spelled) := by
  refine ⟨fun ends rest => ?_⟩
  obtain ⟨c, head, breaks⟩ := begins
  obtain ⟨later, characters⟩ := List.head?_eq_some_iff.mp head
  have second := behind.scan_eq ends rest
  rw [characters, List.cons_append] at second
  rw [String.toList_append, characters, List.append_assoc, List.cons_append, before.scan_eq breaks,
    second, List.append_assoc]

/-- A text between fixed ones. -/
theorem between {back : String} {last : List Token} (own : IsSpelled text spelled)
    (before : Spells front.toList first) (behind : Spells back.toList last)
    (begins : ∃ c ∈ back.toList.head?, isWordChar c = false) :
    IsSpelled (front ++ (text ++ back)) (first ++ (spelled ++ last)) :=
  append_of_spells before (own.append behind.isSpelled begins)

theorem append_mark {mark : String} {between : List Token} (before : IsSpelled front first)
    (known : Spells mark.toList between) (begins : ∃ c ∈ mark.toList.head?, isWordChar c = false)
    (behind : IsSpelled text spelled) :
    IsSpelled (front ++ (mark ++ text)) (first ++ (between ++ spelled)) := by
  refine before.append (append_of_spells known behind) ?_
  obtain ⟨c, head, breaks⟩ := begins
  refine ⟨c, ?_, breaks⟩
  rw [String.toList_append, List.head?_append, Option.mem_def.mp head]
  rfl

theorem indent (own : IsSpelled text spelled) (level : Nat) :
    IsSpelled (Artifact.indent level text) spelled := by
  refine ⟨fun ends rest => ?_⟩
  rw [toList_indent, List.append_assoc, scan_append_of_spells (spells_blanks _), own.scan_eq ends]
  rfl

/-- Nothing needs to stand behind a text. -/
theorem tokens_eq (own : IsSpelled text spelled) : tokens text = spelled := by
  have line : scan .between (text.toList ++ ['\n']) = tokens text ++ [] := scan_newline
  rw [← List.append_nil (tokens text), ← line, own.scan_eq (by decide)]
  exact List.append_nil _

end IsSpelled

/-! ## Lists -/

/-- The tokens of items with commas between them. -/
def joinTokens : List (List Token) → List Token
  | [] => []
  | item :: items => item ++ items.flatMap (.mark ',' :: ·)

/-- Rows with commas between them are the list that they make up. -/
theorem joinTokens_flatten {table : List (List (List Token))}
    (nonempty : ∀ row ∈ table, row ≠ []) :
    joinTokens (table.map joinTokens) = joinTokens table.flatten := by
  have behind (row : List (List Token)) (filled : row ≠ []) :
      Token.mark ',' :: joinTokens row = row.flatMap (.mark ',' :: ·) := by
    obtain ⟨item, items, rfl⟩ := List.exists_cons_of_ne_nil filled
    rfl
  match table, nonempty with
  | [], _ => rfl
  | row :: table, nonempty =>
    rw [List.forall_mem_cons] at nonempty
    obtain ⟨item, items, rfl⟩ := List.exists_cons_of_ne_nil nonempty.1
    rw [List.map_cons, joinTokens, joinTokens, List.flatten_cons, List.cons_append, joinTokens,
      List.flatMap_map, List.flatMap_append, List.append_assoc, ← List.flatMap_id,
      List.flatMap_assoc]
    congr 2
    exact List.flatMap_congr fun row member => behind row (nonempty.2 row member)

theorem mark_notMem_joinTokens {items : List (List Token)} (ne : c ≠ ',')
    (absent : ∀ item ∈ items, .mark c ∉ item) : .mark c ∉ joinTokens items := by
  cases items with
  | nil => exact List.not_mem_nil
  | cons item items =>
    rw [List.forall_mem_cons] at absent
    rw [joinTokens, List.mem_append, List.mem_flatMap]
    rintro (first | ⟨later, member, inside⟩)
    · exact absent.1 first
    · rcases List.mem_cons.mp inside with same | inside
      · exact ne (Token.mark.inj same)
      · exact absent.2 later member inside

variable {ι : Type} {text : ι → String} {taken : ι → List Token}

theorem isSpelled_commas {items : List ι} (each : ∀ i ∈ items, IsSpelled (text i) (taken i)) :
    IsSpelled (Artifact.commas (items.map text)) (joinTokens (items.map taken)) := by
  match items, each with
  | [], _ => exact ⟨fun _ _ => rfl⟩
  | [i], each =>
    have single : Artifact.commas ([i].map text) = text i := by simp [Artifact.commas]
    rw [single, List.map_singleton, joinTokens, List.flatMap_nil, List.append_nil]
    exact each i List.mem_cons_self
  | i :: second :: items, each =>
    refine ⟨fun ends rest => ?_⟩
    have several : (Artifact.commas ((i :: second :: items).map text)).toList =
        (text i).toList ++ ',' :: ' ' ::
          (Artifact.commas ((second :: items).map text)).toList := by
      simp [Artifact.commas, String.intercalate_cons_cons]
    have split : joinTokens ((i :: second :: items).map taken) =
        taken i ++ .mark ',' :: joinTokens ((second :: items).map taken) := rfl
    rw [List.forall_mem_cons] at each
    rw [several, split, List.append_assoc, List.cons_append, List.cons_append, List.append_assoc,
      List.cons_append, each.1.scan_eq (by decide), scan_separator,
      (isSpelled_commas each.2).scan_eq ends]

/-- Lines with commas behind all but the last. -/
theorem tokens_separated {items : List ι} (each : ∀ i ∈ items, IsSpelled (text i) (taken i)) :
    (Artifact.separated (items.map text)).flatMap tokens = joinTokens (items.map taken) := by
  match items, each with
  | [], _ => rfl
  | [i], each =>
    rw [List.map_singleton, Artifact.separated, List.flatMap_singleton,
      (each i List.mem_cons_self).tokens_eq, List.map_singleton, joinTokens, List.flatMap_nil,
      List.append_nil]
  | i :: second :: items, each =>
    rw [List.forall_mem_cons] at each
    have comma : Spells ",".toList [.mark ','] := by decide
    have first := each.1.append comma.isSpelled ⟨',', by decide, by decide⟩
    rw [List.map_cons, List.map_cons, Artifact.separated, List.flatMap_cons, first.tokens_eq,
      ← List.map_cons, tokens_separated each.2, List.append_assoc]
    · rfl
    · exact List.cons_ne_nil _ _

/-- The tokens of words with commas between them. -/
def commaTokens (texts : List String) : List Token := joinTokens (texts.map fun text => [.word text])

theorem mark_notMem_commaTokens (ne : c ≠ ',') (texts : List String) :
    .mark c ∉ commaTokens texts :=
  mark_notMem_joinTokens ne (by simp)

end DecodeTables.Emitted

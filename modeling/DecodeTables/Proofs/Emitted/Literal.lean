import DecodeTables.Proofs.Emitted.Numeral
import DecodeTables.Text.Quoted

/-!
# Literals of emitted sources

Where names are quoted in a source, a literal is one token, whatever stands in it. `lexemes` reads the
tokens off such a text; outside of literals they are those that `tokens` reads. What lines `Lexes` to
is put together line by line: a line without quotation marks has its tokens (`lexes_of_unquoted`), and
a quoted text is read as it was written (`lexes_quoted`).
-/

namespace DecodeTables.Emitted

open Artifact (unlines)
open Text

/-- Where a scanner stands that knows literals. The characters of one are kept from its mark on. -/
inductive Site where
  | code (place : Place)
  | literal (characters : List Char)
  /-- Behind a backslash in a literal. -/
  | escaped (characters : List Char)
  deriving DecidableEq, Repr

namespace Site

/-- The tokens that are complete when nothing else follows. A literal has to end. -/
def finish : Site → List Token
  | code place => place.finish
  | literal _ | escaped _ => [.mark '"']

/-- The tokens that a character completes, and where it leaves the scanner. -/
def step : Site → Char → List Token × Site
  | code place, c =>
    if c = '"' ∧ place ≠ .comment then (place.finish, literal [c])
    else ((place.step c).1, code (place.step c).2)
  | literal characters, c =>
    if c = '"' then ([.word (String.ofList (characters ++ [c]))], code .between)
    else if c = '\\' then ([], escaped (characters ++ [c]))
    else ([], literal (characters ++ [c]))
  | escaped characters, c => ([], literal (characters ++ [c]))

end Site

/-- The tokens of characters that are scanned from the given site. -/
def lex (site : Site) : List Char → List Token
  | [] => site.finish
  | c :: rest =>
    match site.step c with
    | (completed, next) => completed ++ lex next rest

def lexemes (text : String) : List Token := lex (.code .between) text.toList

/-- The lines are the tokens, whatever stands behind them. -/
def Lexes (lines : List String) (taken : List Token) : Prop :=
  ∀ rest, lex (.code .between) ((unlines lines).toList ++ rest) =
    taken ++ lex (.code .between) rest

variable {place : Place} {c : Char} {characters read rest : List Char}

theorem lex_cons {site : Site} :
    lex site (c :: rest) = (site.step c).1 ++ lex (site.step c).2 rest :=
  rfl

/-! ## Code -/

theorem step_code (ne : c ≠ '"') :
    (Site.code place).step c = ((place.step c).1, .code (place.step c).2) :=
  if_neg fun mark => ne mark.1

/-- Code on a line has the tokens that it has without literals. -/
theorem lex_newline (unquoted : '"' ∉ characters) :
    lex (.code place) (characters ++ '\n' :: rest) =
      scan place characters ++ lex (.code .between) rest := by
  induction characters generalizing place with
  | nil =>
    rw [List.nil_append, lex_cons, step_code (by decide), step_newline]
    rfl
  | cons c characters ih =>
    obtain ⟨ne, unquoted⟩ := List.ne_and_not_mem_of_not_mem_cons unquoted
    rw [List.cons_append, lex_cons, step_code ne.symm, ih unquoted, scan_cons, List.append_assoc]

/-- A quotation mark behind code begins a literal, unless it stands in a comment. -/
theorem lex_mark (unquoted : '"' ∉ characters) (inCode : after place characters ≠ .comment) :
    lex (.code place) (characters ++ '"' :: rest) =
      scan place characters ++ lex (.literal ['"']) rest := by
  induction characters generalizing place with
  | nil =>
    have opens : (Site.code place).step '"' = (place.finish, .literal ['"']) :=
      if_pos ⟨rfl, inCode⟩
    rw [List.nil_append, lex_cons, opens]
    rfl
  | cons c characters ih =>
    obtain ⟨ne, unquoted⟩ := List.ne_and_not_mem_of_not_mem_cons unquoted
    rw [List.cons_append, lex_cons, step_code ne.symm, ih unquoted inCode, scan_cons,
      List.append_assoc]

/-! ## Literals -/

/-- A character that neither ends a literal nor escapes the next one. -/
def IsPlain (c : Char) : Prop := c ≠ '"' ∧ c ≠ '\\'

instance (c : Char) : Decidable (IsPlain c) := inferInstanceAs (Decidable (c ≠ '"' ∧ c ≠ '\\'))

theorem lex_plain (plain : ∀ c ∈ characters, IsPlain c) :
    lex (.literal read) (characters ++ rest) = lex (.literal (read ++ characters)) rest := by
  induction characters generalizing read with
  | nil => rw [List.append_nil, List.nil_append]
  | cons c characters ih =>
    rw [List.forall_mem_cons] at plain
    have step : (Site.literal read).step c = ([], .literal (read ++ [c])) := by
      rw [Site.step, if_neg plain.1.1, if_neg plain.1.2]
    rw [List.cons_append, lex_cons, step, ih plain.2, List.append_assoc]
    rfl

/-- What stands behind a backslash does not end a literal. -/
theorem lex_backslash (plain : ∀ c ∈ characters, IsPlain c) :
    lex (.literal read) ('\\' :: c :: characters ++ rest) =
      lex (.literal (read ++ '\\' :: c :: characters)) rest := by
  have step : (Site.literal read).step '\\' = ([], .escaped (read ++ ['\\'])) := rfl
  have step' : (Site.escaped (read ++ ['\\'])).step c =
      ([], .literal (read ++ ['\\'] ++ [c])) := rfl
  rw [List.cons_append, List.cons_append, lex_cons, step, lex_cons, step', lex_plain plain]
  simp only [List.append_assoc, List.cons_append, List.nil_append]

theorem lex_escape (c : Char) :
    lex (.literal read) (escape c ++ rest) = lex (.literal (read ++ escape c)) rest := by
  have alone (c : Char) := @lex_backslash c [] read rest (List.forall_mem_nil _)
  unfold escape
  split_ifs with null tab return_ newline special printable
  · exact alone '0'
  · exact alone 't'
  · exact alone 'r'
  · exact alone 'n'
  · exact alone c
  · rw [Bool.or_eq_true, not_or, decide_eq_true_eq, decide_eq_true_eq] at special
    exact lex_plain fun d member => List.mem_singleton.mp member ▸ special.symm
  · -- The number of a character is written with digits between braces.
    refine @lex_backslash 'u' ('\x7b' :: (Hex.digits c.toNat ++ ['\x7d'])) read rest ?_
    have digit : ∀ d < 16, IsPlain d.digitChar := by decide
    intro d member
    simp only [List.mem_cons, List.mem_append, List.not_mem_nil, or_false] at member
    rcases member with rfl | member | rfl
    · decide
    · obtain ⟨value, below, rfl⟩ := isDigitChar_of_mem_toDigits (by decide) (by decide) member
      exact digit value below
    · decide

theorem lex_flatMap_escape (text : List Char) :
    lex (.literal read) (text.flatMap escape ++ '"' :: rest) =
      .word (String.ofList (read ++ text.flatMap escape ++ ['"'])) ::
        lex (.code .between) rest := by
  induction text generalizing read with
  | nil =>
    rw [List.flatMap_nil, List.nil_append, List.append_nil]
    rfl
  | cons c text ih =>
    rw [List.flatMap_cons, List.append_assoc, lex_escape, ih, List.append_assoc read]

theorem toList_quote (text : String) :
    (quote text).toList = '"' :: (text.toList.flatMap escape ++ ['"']) := by
  rw [quote, String.toList_ofList, List.cons_append]

/-! ## Lines -/

namespace Lexes

variable {front later : List String} {taken taken' : List Token}

theorem nil : Lexes [] [] := fun _ => rfl

theorem append (first : Lexes front taken) (second : Lexes later taken') :
    Lexes (front ++ later) (taken ++ taken') := by
  intro rest
  rw [unlines_append, String.toList_append, List.append_assoc, first, second, List.append_assoc]

/-- Items with a line each. -/
theorem map {ι : Type} {items : List ι} {line : ι → String} {taken : ι → List Token}
    (each : ∀ i ∈ items, Lexes [line i] (taken i)) :
    Lexes (items.map line) (items.flatMap taken) := by
  induction items with
  | nil => exact nil
  | cons i items ih =>
    rw [List.forall_mem_cons] at each
    exact each.1.append (ih each.2)

theorem lexemes_eq (lines : Lexes front taken) : lexemes (unlines front) = taken := by
  have whole := lines []
  rwa [List.append_nil, show lex (.code .between) [] = [] from rfl, List.append_nil] at whole

end Lexes

theorem toList_unlines_singleton (line : String) :
    (unlines [line]).toList ++ rest = line.toList ++ '\n' :: rest := by
  rw [unlines_cons, String.toList_append, List.append_assoc]
  rfl

/-- Lines without literals have the tokens that they have elsewhere. -/
theorem lexes_of_unquoted {lines : List String} (unquoted : ∀ line ∈ lines, '"' ∉ line.toList) :
    Lexes lines (lines.flatMap tokens) := by
  have each : ∀ line ∈ lines, Lexes [id line] (tokens line) := fun line member rest => by
    rw [id, toList_unlines_singleton, lex_newline (unquoted line member)]
    rfl
  have all := Lexes.map each
  rwa [List.map_id] at all

/-- A quoted text on a line is one token. -/
theorem lexes_quoted {front back : String} (text : String) (unquoted : '"' ∉ front.toList)
    (inCode : after .between front.toList ≠ .comment) (unquoted' : '"' ∉ back.toList) :
    Lexes [front ++ (quote text ++ back)]
      (tokens front ++ .word (quote text) :: tokens back) := by
  have literal : String.ofList (['"'] ++ text.toList.flatMap escape ++ ['"']) = quote text := by
    rw [← String.toList_inj, String.toList_ofList, toList_quote]
    rfl
  intro rest
  rw [toList_unlines_singleton, String.toList_append, String.toList_append, toList_quote]
  simp only [List.append_assoc, List.cons_append, List.nil_append]
  rw [lex_mark unquoted inCode, lex_flatMap_escape, literal, lex_newline unquoted']
  rfl

end DecodeTables.Emitted

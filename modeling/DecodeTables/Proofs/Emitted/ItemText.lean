import DecodeTables.Artifact.Executor
import DecodeTables.Proofs.Emitted.DispatchText
import DecodeTables.Proofs.Emitted.ItemModule

/-!
# Reading emitted enumerations

The texts of `Items` and of `Callbacks` say what these hold, in any namespace. `ItemHeader.ofItems`,
`CallbackTable.ofCallbacks` and `VariantModule.ofItems` are what is meant, and `read?_cppLines`,
`read?_callbackLines` and `read?_rustLines` read them back from the lines.
-/

namespace DecodeTables.Emitted

open Artifact Text

/-- The header that items are written as. -/
def ItemHeader.ofItems (e : Items) : ItemHeader where
  items := e.cppNames
  cases := e.items.map fun item => ("k" ++ item.1, item.1)

/-- The array that callbacks are written as. -/
def CallbackTable.ofCallbacks (c : Callbacks) : CallbackTable where
  declared := c.names
  bound := "kEndID"
  elements := c.names

/-- The items that a match has arms for, with their texts: those of identifiers and the terminal. -/
def armItems (e : Items) : List (String × String) := e.items ++ [("END", "END")]

/-- The module that items are written as. -/
def VariantModule.ofItems (e : Items) : VariantModule where
  variants := e.rustNames.zipIdx
  count := e.items.length
  arms := (armItems e).map fun item => (item.1, quote item.2)

/-- The items of identifiers have names. -/
def LegibleItems (e : Items) : Prop := ∀ item ∈ e.items, IsWord item.1

/-! ## Words -/

theorem IsWord.append {front text : String} (first : IsWord front) (second : IsWord text) :
    IsWord (front ++ text) := by
  rw [IsWord, String.toList_append]
  refine ⟨List.append_ne_nil_of_left_ne_nil first.1 _, fun c member => ?_⟩
  exact (List.mem_append.mp member).elim (first.2 c) (second.2 c)

theorem IsWord.unquoted {text : String} (isWord : IsWord text) : '"' ∉ text.toList :=
  fun member => absurd (isWord.2 '"' member) (by decide)

variable {e : Items} {c : Callbacks}

theorem isWord_of_mem_cppNames (legible : LegibleItems e) {name : String}
    (member : name ∈ e.cppNames) : IsWord name := by
  rcases List.mem_append.mp member with member | member
  · obtain ⟨item, listed, rfl⟩ := List.mem_map.mp member
    exact IsWord.append (by decide) (legible item listed)
  · exact List.mem_singleton.mp member ▸ by decide

/-! ## Headers -/

/-- What stands between the lines of a namespace. -/
theorem readBetween?_eq {α : Type} {reader : Reader α} {front lines back : List String} {a : α}
    (reads : Reads reader (lines.flatMap tokens) a) :
    readBetween? reader front back (unlines (front ++ (lines ++ back))) = some a := by
  rw [readBetween?, unlines_append, unlines_append, String.toList_append, String.toList_append,
    between?_append, Option.bind_some, ← tokens, tokens_unlines]
  exact reads.all?_eq

def itemCaseTokens (symbol : String) : List Token :=
  [.word "case"] ++ ([.word ("k" ++ symbol)] ++ (tokens ": return \"" ++
    ([.word symbol] ++ tokens "\";")))

/-- The lines of a case. -/
def itemCaseLines (symbol : String) : List String :=
  [indent 2 ("case k" ++ symbol ++ ":"), indent 3 ("return \"" ++ symbol ++ "\";")]

theorem tokens_itemCaseLines {symbol : String} (isWord : IsWord symbol) :
    (itemCaseLines symbol).flatMap tokens = itemCaseTokens symbol := by
  have label : "case k" ++ symbol ++ ":" = "case " ++ (("k" ++ symbol) ++ ":") := by
    rw [show "case k" = "case " ++ "k" from rfl, String.append_assoc, String.append_assoc,
      String.append_assoc]
  have item : IsWord ("k" ++ symbol) := IsWord.append (by decide) isWord
  have first : IsSpelled ("case " ++ (("k" ++ symbol) ++ ":"))
      ([.word "case"] ++ ([.word ("k" ++ symbol)] ++ [.mark ':'])) :=
    item.isSpelled.between (by decide) (by decide) ⟨':', by decide, by decide⟩
  have second : IsSpelled ("return \"" ++ (symbol ++ "\";"))
      ([.word "return", .mark '"'] ++ ([.word symbol] ++ tokens "\";")) :=
    isWord.isSpelled.between (by decide) (by decide) ⟨'"', by decide, by decide⟩
  have answer : "return \"" ++ symbol ++ "\";" = "return \"" ++ (symbol ++ "\";") :=
    String.append_assoc
  have between : tokens ": return \"" = [.mark ':'] ++ [.word "return", .mark '"'] := by decide
  rw [itemCaseLines, itemCaseTokens, List.flatMap_cons, List.flatMap_singleton, tokens_indent,
    tokens_indent, label, answer, first.tokens_eq, second.tokens_eq, between]
  simp only [List.append_assoc]

theorem reads_itemCase (symbol : String) :
    Reads Reader.itemCase (itemCaseTokens symbol) ("k" ++ symbol, symbol) := by
  unfold Reader.itemCase itemCaseTokens
  apply Reads.expect_bind (by decide)
  apply Reads.bind (Reads.word _)
  apply Reads.expect_bind rfl
  apply Reads.bind (Reads.word _)
  exact Reads.expect_pure rfl _

/-- How the switch over an enumeration begins. -/
def switchHead : List String :=
  ["\x7d;", "", "inline const char *enum_to_str(InstrID id) noexcept", "\x7b",
    indent 1 "switch (id)", indent 1 "\x7b"]

def switchEnd : List String :=
  [indent 2 "default:", indent 3 "std::unreachable();", indent 1 "\x7d", "\x7d"]

/-- The lines of an enumeration and of the function behind it. -/
def headerLines (e : Items) : List String :=
  ["enum InstrID", "\x7b"] ++ (separated (e.cppNames.map (indent 1)) ++ (switchHead ++
    (e.items.flatMap (fun item => itemCaseLines item.1) ++ switchEnd)))

theorem tokens_switchHead : switchHead.flatMap tokens = tokens Reader.switchText := by
  simp only [switchHead, List.flatMap_cons, List.flatMap_nil, tokens_indent, Reader.switchText]
  repeat rw [tokens_ofList]
  decide +kernel

theorem tokens_switchEnd :
    switchEnd.flatMap tokens = tokens "default: std::unreachable(); \x7d \x7d" := by
  simp only [switchEnd, List.flatMap_cons, List.flatMap_nil, tokens_indent]
  repeat rw [tokens_ofList]
  decide +kernel

theorem tokens_headerLines (legible : LegibleItems e) :
    (headerLines e).flatMap tokens = tokens "enum InstrID \x7b" ++ (commaTokens e.cppNames ++
      (tokens Reader.switchText ++ (e.items.flatMap (fun item => itemCaseTokens item.1) ++
        tokens "default: std::unreachable(); \x7d \x7d"))) := by
  have front : ["enum InstrID", "\x7b"].flatMap tokens = tokens "enum InstrID \x7b" := by decide
  have items : (separated (e.cppNames.map (indent 1))).flatMap tokens =
      commaTokens e.cppNames :=
    tokens_separated fun name member =>
      (isWord_of_mem_cppNames legible member).isSpelled.indent 1
  rw [headerLines]
  repeat rw [flatMap_tokens_append]
  rw [front, items, tokens_switchHead, tokens_switchEnd, List.flatMap_assoc,
    List.flatMap_congr fun item member => tokens_itemCaseLines (legible item member)]

theorem reads_itemHeader (legible : LegibleItems e) :
    Reads Reader.itemHeader ((headerLines e).flatMap tokens) (.ofItems e) := by
  have filled : e.cppNames ≠ [] := List.append_ne_nil_of_right_ne_nil _ (List.cons_ne_nil _ _)
  have ends : (tokens "default: std::unreachable(); \x7d \x7d").head? = some (.word "default") := by
    decide +kernel
  have brace : (tokens Reader.switchText).head? = some (.mark '\x7d') := by decide +kernel
  rw [tokens_headerLines legible]
  unfold Reader.itemHeader
  apply Reads.expect_bind rfl
  apply Reads.list_bind filled (fun name _ => Reads.word name) (head?_append_of_eq brace) (by decide)
  apply Reads.expect_bind rfl
  apply Reads.many_bind (fun item _ => reads_itemCase item.1) (fun item _ => rfl) ends (by decide)
  rw [List.map_id']
  exact Reads.expect_pure rfl _

/-- The text of items in a header is read as the items that it is written as. -/
theorem read?_cppLines (legible : LegibleItems e) (space : String) :
    ItemHeader.read? space (unlines (e.cppLines space)) = some (.ofItems e) := by
  have split : e.cppLines space = headerFront space ++ (headerLines e ++ headerBack space) := by
    simp only [Items.cppLines, Items.cppBanner, Items.openSpace, Items.closeSpace, headerFront,
      headerLines, headerBack, itemCaseLines, switchHead, switchEnd, List.append_assoc,
      List.cons_append, List.nil_append]
  rw [ItemHeader.read?, split]
  exact readBetween?_eq (reads_itemHeader legible)

/-! ## Callbacks -/

theorem names?_commaTokens (names : List String) :
    Reader.names? (commaTokens names) = some names := by
  match names with
  | [] => rfl
  | [_] => rfl
  | name :: second :: names =>
    have split : commaTokens (name :: second :: names) =
        .word name :: .mark ',' :: commaTokens (second :: names) := rfl
    rw [split, Reader.names?, names?_commaTokens (second :: names)]
    rfl

def declarationTokens (name : String) : List Token :=
  tokens "static bool" ++ ([.word name] ++ tokens "(Hart &h, const Instruction &instr);")

def declarationLine (name : String) : String :=
  indent 1 ("static bool " ++ name ++ "(Hart &h, const Instruction &instr);")

theorem tokens_declarationLine {name : String} (isWord : IsWord name) :
    tokens (declarationLine name) = declarationTokens name := by
  have line : IsSpelled ("static bool " ++ (name ++ "(Hart &h, const Instruction &instr);"))
      (tokens "static bool" ++ ([.word name] ++ tokens "(Hart &h, const Instruction &instr);")) :=
    isWord.isSpelled.between (by decide) (by decide) ⟨'(', by decide, by decide⟩
  rw [declarationLine, tokens_indent, String.append_assoc, line.tokens_eq, declarationTokens]

theorem reads_declaration (name : String) :
    Reads Reader.declaration (declarationTokens name) name := by
  unfold Reader.declaration declarationTokens
  apply Reads.expect_bind rfl
  apply Reads.bind (Reads.word _)
  exact Reads.expect_pure rfl _

/-- The lines of declarations and of the array behind them. -/
def callbackLines (c : Callbacks) : List String :=
  c.names.map declarationLine ++
    (["", indent 1
        "static constexpr std::array<callback_type, InstrID::kEndID> kCallbacks_ = \x7b"] ++
      (c.elementLines ++ [indent 1 "\x7d;"]))

theorem tokens_elementLines (areWords : ∀ name ∈ c.names, IsWord name) :
    c.elementLines.flatMap tokens = commaTokens c.names := by
  rw [Callbacks.elementLines]
  split
  · rename_i empty
    rw [List.isEmpty_iff.mp empty]
    rfl
  · exact tokens_separated fun name member => (areWords name member).isSpelled.indent 2

theorem tokens_callbackLines (areWords : ∀ name ∈ c.names, IsWord name) :
    (callbackLines c).flatMap tokens = c.names.flatMap declarationTokens ++
      (tokens "static constexpr std::array<callback_type, InstrID::" ++ ([.word "kEndID"] ++
        (tokens "> kCallbacks_ = \x7b" ++
          ((commaTokens c.names ++ [.mark '\x7d']) ++ tokens ";")))) := by
  have array : ["", indent 1
      "static constexpr std::array<callback_type, InstrID::kEndID> kCallbacks_ = \x7b"].flatMap
        tokens = tokens "static constexpr std::array<callback_type, InstrID::" ++
          ([.word "kEndID"] ++ tokens "> kCallbacks_ = \x7b") := by
    simp only [List.flatMap_cons, List.flatMap_nil, tokens_indent]
    repeat rw [tokens_ofList]
    decide +kernel
  have last : [indent 1 "\x7d;"].flatMap tokens = [.mark '\x7d'] ++ tokens ";" := by
    rw [List.flatMap_singleton, tokens_indent]
    decide
  rw [callbackLines, flatMap_tokens_append, flatMap_tokens_append, flatMap_tokens_append,
    List.flatMap_map, List.flatMap_congr fun name member =>
      tokens_declarationLine (areWords name member),
    array, tokens_elementLines areWords, last]
  simp only [List.append_assoc]

theorem reads_callbackTable (areWords : ∀ name ∈ c.names, IsWord name) :
    Reads Reader.callbackTable ((callbackLines c).flatMap tokens) (.ofCallbacks c) := by
  rw [tokens_callbackLines areWords]
  unfold Reader.callbackTable
  -- A declaration does not begin like the array behind the last one.
  apply Reads.repeated_bind (fun name _ => reads_declaration name)
    (fun name _ => List.cons_ne_nil _ _) (fun _ => rfl)
  apply Reads.expect_bind rfl
  apply Reads.bind (Reads.word _)
  apply Reads.expect_bind rfl
  apply Reads.bind (Reads.upTo (mark_notMem_commaTokens (by decide) _))
  apply Reads.lift_bind (names?_commaTokens c.names)
  rw [List.map_id']
  exact Reads.expect_pure rfl _

/-- The text of callbacks is read as the array that it is written as. -/
theorem read?_callbackLines (areWords : ∀ name ∈ c.names, IsWord name) (space : String) :
    CallbackTable.read? space (unlines (c.lines space)) = some (.ofCallbacks c) := by
  have split : c.lines space = includedFront space ++ (callbackLines c ++ []) := by
    simp only [Callbacks.lines, Items.cppBanner, includedFront, callbackLines, List.append_assoc,
      List.cons_append, List.nil_append, List.append_nil]
    rfl
  rw [CallbackTable.read?, split]
  exact readBetween?_eq (reads_callbackTable areWords)

/-! ## Variants -/

def variantLine (name : String) (discriminant : Nat) : String :=
  indent 1 s!"{name} = {discriminant},"

def variantTokens (v : String × Nat) : List Token :=
  [.word v.1] ++ ([.mark '='] ++ ([.word v.2.repr] ++ [.mark ',']))

theorem variantLine_eq (name : String) (discriminant : Nat) : variantLine name discriminant =
    indent 1 (name ++ (" = " ++ (discriminant.repr ++ ","))) := by
  simp [variantLine, toString, String.append_assoc]

theorem tokens_variantLine {name : String} (isWord : IsWord name) (discriminant : Nat) :
    tokens (variantLine name discriminant) = variantTokens (name, discriminant) := by
  have comma : Spells ",".toList [.mark ','] := by decide
  have line : IsSpelled (name ++ (" = " ++ (discriminant.repr ++ ",")))
      (variantTokens (name, discriminant)) :=
    isWord.isSpelled.append_mark (by decide) ⟨' ', by decide, by decide⟩ <|
      (isWord_repr discriminant).isSpelled.append comma.isSpelled ⟨',', by decide, by decide⟩
  rw [variantLine_eq, tokens_indent, line.tokens_eq]

theorem unquoted_indent {level : Nat} {line : String} (unquoted : '"' ∉ line.toList) :
    '"' ∉ (indent level line).toList := by
  rw [toList_indent, List.mem_append, not_or]
  exact ⟨fun member => absurd (List.eq_of_mem_replicate member) (by decide), unquoted⟩

theorem unquoted_variantLine {name : String} (isWord : IsWord name) (discriminant : Nat) :
    '"' ∉ (variantLine name discriminant).toList := by
  rw [variantLine_eq]
  refine unquoted_indent ?_
  simp only [String.toList_append, List.mem_append, not_or]
  exact ⟨isWord.unquoted, by decide, (isWord_repr discriminant).unquoted, by decide⟩

def countLine (count : Nat) : String := indent 1 s!"pub const COUNT: usize = {count};"

theorem countLine_eq (count : Nat) :
    countLine count = indent 1 ("pub const COUNT: usize = " ++ (count.repr ++ ";")) := by
  simp [countLine, toString, String.append_assoc]

theorem tokens_countLine (count : Nat) :
    tokens (countLine count) =
      tokens "pub const COUNT: usize =" ++ [.word count.repr, .mark ';'] := by
  have line : IsSpelled ("pub const COUNT: usize = " ++ (count.repr ++ ";"))
      (tokens "pub const COUNT: usize =" ++ ([.word count.repr] ++ [.mark ';'])) :=
    (isWord_repr count).isSpelled.between (by decide) (by decide) ⟨';', by decide, by decide⟩
  rw [countLine_eq, tokens_indent, line.tokens_eq]
  rfl

theorem unquoted_countLine (count : Nat) : '"' ∉ (countLine count).toList := by
  rw [countLine_eq]
  refine unquoted_indent ?_
  simp only [String.toList_append, List.mem_append, not_or]
  exact ⟨by decide, (isWord_repr count).unquoted, by decide⟩

def variantArmLine (item : String × String) : String :=
  indent 3 ("InstrId::" ++ item.1 ++ " => ") ++ (quote item.2 ++ ",")

def variantArmTokens (item : String × String) : List Token :=
  tokens "InstrId::" ++ ([.word item.1] ++ (tokens "=>" ++ ([.word (quote item.2)] ++ [.mark ','])))

theorem lexes_variantArmLine {item : String × String} (isWord : IsWord item.1) :
    Lexes [variantArmLine item] (variantArmTokens item) := by
  have path : Spells "InstrId::".toList (tokens "InstrId::") := by decide
  have front : IsSpelled ("InstrId::" ++ (item.1 ++ " => "))
      (tokens "InstrId::" ++ ([.word item.1] ++ tokens "=>")) :=
    isWord.isSpelled.between path (by decide) ⟨' ', by decide, by decide⟩
  have unquoted : '"' ∉ (indent 3 ("InstrId::" ++ item.1 ++ " => ")).toList := by
    refine unquoted_indent ?_
    simp only [String.toList_append, List.mem_append, not_or]
    exact ⟨⟨by decide, isWord.unquoted⟩, by decide⟩
  have left : after .between (indent 3 ("InstrId::" ++ item.1 ++ " => ")).toList = .between := by
    rw [toList_indent, String.toList_append, String.toList_append, after_append, after_append,
      after_append, (spells_blanks _).1, path.1, (after_isWord isWord).1]
    rfl
  have lexed := lexes_quoted item.2 unquoted (left.trans_ne (by decide))
    (show '"' ∉ ",".toList by decide)
  rw [tokens_indent, String.append_assoc, front.tokens_eq] at lexed
  exact lexed

/-- How an enumeration with discriminants begins. -/
def enumHead : List String := Items.rustBanner ++
  ["#[allow(non_camel_case_types, clippy::upper_case_acronyms)]",
    "#[derive(Debug, Clone, Copy, PartialEq, Eq, PartialOrd, Ord, Hash)]",
    "pub enum InstrId \x7b"]

/-- The comment on the terminal. -/
def terminalComment : String := indent 1 "/// Not a decode result; sizes per-instruction tables."

def enumEnd : List String := ["\x7d", "", "impl InstrId \x7b"]

/-- How the match over an enumeration begins. -/
def matchHead : List String :=
  ["", indent 1 "pub const fn name(self) -> &'static str \x7b", indent 2 "match self \x7b"]

def matchEnd : List String := [indent 2 "\x7d", indent 1 "\x7d", "\x7d"]

/-- The lines of an enumeration with discriminants, up to the match over it. -/
def enumLines (e : Items) : List String :=
  enumHead ++ (e.items.zipIdx.map (fun v => variantLine v.1.1 v.2) ++
    ([terminalComment, variantLine "END" e.items.length] ++
      (enumEnd ++ ([countLine e.items.length] ++ matchHead))))

def enumTokens (e : Items) : List Token :=
  tokens Reader.variantsText ++ (e.rustNames.zipIdx.flatMap variantTokens ++
    (tokens Reader.countText ++ ([.word e.items.length.repr] ++ tokens Reader.matchText)))

theorem zipIdx_rustNames (e : Items) : e.rustNames.zipIdx =
    e.items.zipIdx.map (fun v => (v.1.1, v.2)) ++ [("END", e.items.length)] := by
  rw [Items.rustNames, List.zipIdx_append, List.zipIdx_map, List.length_map, Nat.zero_add]
  rfl

theorem mem_items_of_mem_zipIdx {v : (String × String) × Nat} (member : v ∈ e.items.zipIdx) :
    v.1 ∈ e.items :=
  List.mem_of_getElem? (List.mem_zipIdx_iff_getElem?.mp member)

theorem tokens_enumHead : enumHead.flatMap tokens = tokens Reader.variantsText := by
  simp only [enumHead, Items.rustBanner, List.cons_append, List.nil_append, List.flatMap_cons,
    List.flatMap_nil, Reader.variantsText]
  repeat rw [tokens_ofList]
  decide +kernel

theorem tokens_terminalComment : tokens terminalComment = [] := by
  rw [terminalComment, tokens_indent, tokens_ofList]
  decide +kernel

theorem tokens_enumEnd : enumEnd.flatMap tokens ++ tokens "pub const COUNT: usize =" =
    tokens Reader.countText := by
  decide +kernel

theorem tokens_matchHead :
    .mark ';' :: matchHead.flatMap tokens = tokens Reader.matchText := by
  simp only [matchHead, List.flatMap_cons, List.flatMap_nil, tokens_indent, Reader.matchText]
  repeat rw [tokens_ofList]
  decide +kernel

theorem tokens_matchEnd : matchEnd.flatMap tokens = tokens "\x7d \x7d \x7d" := by
  simp only [matchEnd, List.flatMap_cons, List.flatMap_nil, tokens_indent]
  decide

theorem tokens_enumLines (legible : LegibleItems e) :
    (enumLines e).flatMap tokens = enumTokens e := by
  have variants : (e.items.zipIdx.map fun v => variantLine v.1.1 v.2).flatMap tokens =
      e.items.zipIdx.flatMap fun v => variantTokens (v.1.1, v.2) := by
    rw [List.flatMap_map]
    exact List.flatMap_congr fun v member =>
      tokens_variantLine (legible v.1 (mem_items_of_mem_zipIdx member)) v.2
  have terminal : [terminalComment, variantLine "END" e.items.length].flatMap tokens =
      variantTokens ("END", e.items.length) := by
    rw [List.flatMap_cons, List.flatMap_singleton, tokens_terminalComment, List.nil_append]
    exact tokens_variantLine (by decide) _
  rw [enumLines]
  repeat rw [flatMap_tokens_append]
  rw [tokens_enumHead, variants, terminal, List.flatMap_singleton, tokens_countLine, enumTokens,
    zipIdx_rustNames, List.flatMap_append, List.flatMap_singleton, List.flatMap_map,
    ← tokens_enumEnd, ← tokens_matchHead]
  simp only [List.append_assoc, List.cons_append, List.nil_append]

theorem unquoted_enumLines (legible : LegibleItems e) :
    ∀ line ∈ enumLines e, '"' ∉ line.toList := by
  have fixed : ∀ line ∈ enumHead ++ (terminalComment :: (enumEnd ++ matchHead)),
      '"' ∉ line.toList := by
    decide +kernel
  have variants : ∀ line ∈ e.items.zipIdx.map (fun v => variantLine v.1.1 v.2),
      '"' ∉ line.toList := by
    intro line member
    obtain ⟨v, listed, rfl⟩ := List.mem_map.mp member
    exact unquoted_variantLine (legible v.1 (mem_items_of_mem_zipIdx listed)) v.2
  rw [List.forall_mem_append, List.forall_mem_cons, List.forall_mem_append] at fixed
  obtain ⟨head, comment, last, opened⟩ := fixed
  simp only [enumLines, List.forall_mem_append, List.forall_mem_cons]
  exact ⟨head, variants, ⟨comment, unquoted_variantLine (by decide) _, List.forall_mem_nil _⟩, last,
    ⟨unquoted_countLine _, List.forall_mem_nil _⟩, opened⟩

theorem reads_variantArm (item : String × String) :
    Reads Reader.variantArm (variantArmTokens item) (item.1, quote item.2) := by
  unfold Reader.variantArm variantArmTokens
  apply Reads.expect_bind rfl
  apply Reads.bind (Reads.word _)
  apply Reads.expect_bind rfl
  apply Reads.bind (Reads.word _)
  exact Reads.expect_pure (by decide) _

theorem reads_numeral (n : Nat) : Reads Reader.numeral [.word n.repr] n := by
  intro rest
  rw [List.singleton_append, Reader.numeral, numeral?_repr]
  rfl

theorem reads_variant (v : String × Nat) : Reads Reader.variant (variantTokens v) v := by
  unfold Reader.variant variantTokens
  apply Reads.bind (Reads.word _)
  apply Reads.expect_bind (by decide)
  apply Reads.bind (reads_numeral v.2)
  exact Reads.expect_pure (by decide) _

def variantModuleTokens (e : Items) : List Token :=
  enumTokens e ++ ((armItems e).flatMap variantArmTokens ++ tokens "\x7d \x7d \x7d")

theorem reads_variantModule (e : Items) :
    Reads Reader.variantModule (variantModuleTokens e) (.ofItems e) := by
  rw [variantModuleTokens, enumTokens]
  simp only [List.append_assoc]
  unfold Reader.variantModule
  apply Reads.expect_bind rfl
  -- No variant begins with the brace behind the last one.
  apply Reads.repeated_bind (fun v _ => reads_variant v) (fun v _ => List.cons_ne_nil _ _)
    (fun _ => rfl)
  apply Reads.expect_bind rfl
  apply Reads.bind (reads_numeral _)
  apply Reads.expect_bind rfl
  apply Reads.many_bind (fun item _ => reads_variantArm item) (fun item _ => rfl) rfl (by decide)
  rw [List.map_id']
  exact Reads.expect_pure rfl _

/-- The lines of an enumeration with discriminants, and of the match over it. -/
theorem rustLines_eq (e : Items) : e.rustLines =
    enumLines e ++ ((armItems e).map variantArmLine ++ matchEnd) := by
  have ends : [indent 3 "InstrId::END => \"END\","] = [("END", "END")].map variantArmLine := by
    decide +kernel
  have arm (item : String × String) : indent 3 s!"InstrId::{item.1} => {quote item.2}," =
      variantArmLine item := by
    apply String.toList_injective
    simp [variantArmLine, toList_indent, toString, String.toList_append]
  rw [armItems, List.map_append, ← ends]
  simp only [Items.rustLines, enumLines, enumHead, terminalComment, enumEnd, matchHead, matchEnd,
    variantLine, countLine, arm, List.append_assoc, List.cons_append, List.nil_append]
  rfl

theorem lexes_rustLines (legible : LegibleItems e) : Lexes e.rustLines (variantModuleTokens e) := by
  have arms : ∀ item ∈ armItems e, Lexes [variantArmLine item] (variantArmTokens item) := by
    intro item member
    refine lexes_variantArmLine ?_
    rcases List.mem_append.mp member with member | member
    · exact legible item member
    · exact List.mem_singleton.mp member ▸ by decide
  have back : ∀ line ∈ matchEnd, '"' ∉ line.toList := by decide +kernel
  rw [rustLines_eq, variantModuleTokens, ← tokens_enumLines legible, ← tokens_matchEnd]
  exact (lexes_of_unquoted (unquoted_enumLines legible)).append
    ((Lexes.map arms).append (lexes_of_unquoted back))

/-- The text of items with discriminants is read as the module that it is written as. -/
theorem read?_rustLines (legible : LegibleItems e) :
    VariantModule.read? (unlines e.rustLines) = some (.ofItems e) := by
  rw [VariantModule.read?, (lexes_rustLines legible).lexemes_eq]
  exact (reads_variantModule e).all?_eq

end DecodeTables.Emitted

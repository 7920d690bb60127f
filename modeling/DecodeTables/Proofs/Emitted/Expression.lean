import DecodeTables.Proofs.Emitted.Reader

/-!
# Expressions of emitted sources

The part of the target language that emitted functions are written in: integers of three types, with
shifts, bitwise operators, subtraction, casts and calls. `Expr.read?` reads an expression by the
precedence of its operators, `Expr.eval` computes it, and a `Function` binds its parameters and
variables around it. Nothing is computed where the target language would refuse to compile or stop
at run time: operands of different types, a shift by the width or more, a difference out of range.
-/

namespace DecodeTables.Emitted

/-! ## Values -/

inductive IntType where
  | u8 | u32 | i64
  deriving DecidableEq, Repr

def IntType.ofName? : String → Option IntType
  | "u8" => some u8
  | "u32" => some u32
  | "i64" => some i64
  | _ => none

/-- An integer of some type. A number in the source takes its type from what it meets. -/
inductive Value where
  | literal (n : Nat)
  | u8 (bits : BitVec 8)
  | u32 (bits : BitVec 32)
  | i64 (bits : BitVec 64)
  deriving DecidableEq, Repr

/-- The value of a type that agrees with a number in all bits that the type has. -/
def IntType.wrap (n : Int) : IntType → Value
  | u8 => .u8 (BitVec.ofInt 8 n)
  | u32 => .u32 (BitVec.ofInt 32 n)
  | i64 => .i64 (BitVec.ofInt 64 n)

namespace Value

def toInt : Value → Int
  | literal n => n
  | u8 bits => bits.toNat
  | u32 bits => bits.toNat
  | i64 bits => bits.toInt

def type? : Value → Option IntType
  | literal _ => none
  | u8 _ => some .u8
  | u32 _ => some .u32
  | i64 _ => some .i64

/-- A number as a value of a type that has it. -/
def ofInt? (type : IntType) (n : Int) : Option Value :=
  if (type.wrap n).toInt = n then some (type.wrap n) else none

/-- The value where a type is expected. -/
def typed? (type : IntType) : Value → Option Value
  | literal n => ofInt? type n
  | v => if v.type? = some type then some v else none

/-- Joins two values of one type bit by bit. -/
def join? (f : {n : Nat} → BitVec n → BitVec n → BitVec n) : Value → Value → Option Value
  | u8 a, u8 b => some (u8 (f a b))
  | u32 a, u32 b => some (u32 (f a b))
  | i64 a, i64 b => some (i64 (f a b))
  | _, _ => none

def shiftLeft? (v : Value) (amount : Nat) : Option Value :=
  match v with
  | literal _ => none
  | u8 a => if amount < 8 then some (u8 (a <<< amount)) else none
  | u32 a => if amount < 32 then some (u32 (a <<< amount)) else none
  | i64 a => if amount < 64 then some (i64 (a <<< amount)) else none

/-- Shifts down. A signed value keeps its sign. -/
def shiftRight? (v : Value) (amount : Nat) : Option Value :=
  match v with
  | literal _ => none
  | u8 a => if amount < 8 then some (u8 (a >>> amount)) else none
  | u32 a => if amount < 32 then some (u32 (a >>> amount)) else none
  | i64 a => if amount < 64 then some (i64 (a.sshiftRight amount)) else none

end Value

inductive Operator where
  | sub | shl | shr | and | or
  deriving DecidableEq, Repr

namespace Operator

/-- Operators of a higher level bind tighter. -/
def level : Operator → Nat
  | or => 0
  | and => 1
  | shl | shr => 2
  | sub => 3

def read? : List Token → Option (Operator × List Token)
  | .mark '|' :: rest => some (or, rest)
  | .mark '&' :: rest => some (and, rest)
  | .mark '<' :: .mark '<' :: rest => some (shl, rest)
  | .mark '>' :: .mark '>' :: rest => some (shr, rest)
  | .mark '-' :: rest => some (sub, rest)
  | _ => none

/-- Both operands of an operator have one type, except that any integer may be a shift amount. -/
def compute? (op : Operator) (a b : Value) : Option Value :=
  match op with
  | shl => b.toInt.toNat?.bind a.shiftLeft?
  | shr => b.toInt.toNat?.bind a.shiftRight?
  | sub | and | or => do
    let type ← a.type? <|> b.type?
    let a ← a.typed? type
    let b ← b.typed? type
    match op with
    | and => Value.join? (· &&& ·) a b
    | or => Value.join? (· ||| ·) a b
    | _ => Value.ofInt? type (a.toInt - b.toInt)

end Operator

/-! ## Expressions -/

mutual

inductive Expr where
  | literal (n : Nat)
  | name (x : String)
  | cast (e : Expr) (type : IntType)
  | binary (op : Operator) (a b : Expr)
  | call (function : String) (arguments : Exprs)
  deriving DecidableEq

inductive Exprs where
  | nil
  | cons (e : Expr) (es : Exprs)
  deriving DecidableEq

end

namespace Expr

/-- Takes the casts behind an expression. -/
def casts (e : Expr) : List Token → Expr × List Token
  | .word "as" :: .word type :: rest =>
    match IntType.ofName? type with
    | some type => casts (e.cast type) rest
    | none => (e, .word "as" :: .word type :: rest)
  | ts => (e, ts)

/-! An expression is read with a bound on the steps, of which no token takes more than three. -/
mutual

/-- Takes a number, a name, a call or an expression in parentheses, and the casts behind it. -/
def operand : Nat → List Token → Option (Expr × List Token)
  | 0, _ => none
  | steps + 1, .mark '(' :: rest => do
    let (e, .mark ')' :: rest) ← operation steps 0 rest | none
    return casts e rest
  | steps + 1, .word f :: .mark '(' :: rest => do
    let (es, rest) ← arguments steps rest
    return casts (.call f es) rest
  | _ + 1, .word text :: rest => some (casts ((numeral? text).elim (.name text) .literal) rest)
  | _ + 1, _ => none

/-- Takes operands for as long as the operators between them are of the level or bind tighter. -/
def operation : Nat → Nat → List Token → Option (Expr × List Token)
  | 0, _, _ => none
  | steps + 1, level, ts => do
    let (a, rest) ← operand steps ts
    operators steps level a rest

/-- Takes the operators behind a left operand, with their right operands. -/
def operators : Nat → Nat → Expr → List Token → Option (Expr × List Token)
  | 0, _, _, _ => none
  | steps + 1, level, a, ts =>
    match Operator.read? ts with
    | some (op, rest) =>
      if level ≤ op.level then do
        let (b, rest) ← operation steps (op.level + 1) rest
        operators steps level (.binary op a b) rest
      else some (a, ts)
    | none => some (a, ts)

/-- Takes the arguments of a call and the parenthesis behind them. -/
def arguments : Nat → List Token → Option (Exprs × List Token)
  | 0, _ => none
  | _ + 1, .mark ')' :: rest => some (.nil, rest)
  | steps + 1, ts => do
    let (e, rest) ← operation steps 0 ts
    match rest with
    | .mark ',' :: rest => do
      let (es, rest) ← arguments steps rest
      return (.cons e es, rest)
    | .mark ')' :: rest => some (.cons e .nil, rest)
    | _ => none

end

/-- Reads tokens that are an expression and no more. -/
def read? (ts : List Token) : Option Expr :=
  match operation (3 * ts.length + 3) 0 ts with
  | some (e, []) => some e
  | _ => none

variable (calls : String → List Value → Option Value) (values : List (String × Value))

mutual

/-- The value of an expression, from the values of the names and of the calls. -/
def eval : Expr → Option Value
  | literal n => some (.literal n)
  | name x => values.lookup x
  | cast e type => (eval e).map fun v => type.wrap v.toInt
  | binary op a b => do op.compute? (← eval a) (← eval b)
  | call f es => do calls f (← evalAll es)

def evalAll : Exprs → Option (List Value)
  | .nil => some []
  | .cons e es => do return (← eval e) :: (← evalAll es)

end

mutual

/-- The names of the functions that an expression calls. -/
def called : Expr → List String
  | literal _ | name _ => []
  | cast e _ => called e
  | binary _ a b => called a ++ called b
  | call f es => f :: calledAll es

def calledAll : Exprs → List String
  | .nil => []
  | .cons e es => called e ++ calledAll es

end

end Expr

/-! ## Functions -/

structure Function where
  name : String
  parameters : List (String × IntType)
  result : IntType
  /-- The variables in the order of their definitions. -/
  locals : List (String × Expr)
  value : Expr

namespace Function

variable (f : Function)

/-- The values of the parameters. -/
def arguments? : List (String × IntType) → List Value → Option (List (String × Value))
  | [], [] => some []
  | (x, type) :: parameters, v :: vs => do
    return (x, ← v.typed? type) :: (← arguments? parameters vs)
  | _, _ => none

def run? (calls : String → List Value → Option Value) (arguments : List Value) :
    Option Value := do
  let start ← arguments? f.parameters arguments
  let values ← f.locals.foldlM (fun values (x, e) => do
    return (x, ← e.eval calls values) :: values) start
  (← f.value.eval calls values).typed? f.result

/-- The names of the functions that a function calls. -/
def called : List String := f.locals.flatMap (fun v => v.2.called) ++ f.value.called

/-- A call among functions. None of them calls itself on the way, so calls are no deeper than there
are functions. -/
def call (functions : List Function) : Nat → String → List Value → Option Value
  | 0, _, _ => none
  | depth + 1, name, arguments => do
    let f ← functions.find? fun f => f.name == name
    f.run? (call functions depth) arguments

end Function

namespace Reader

/-- Takes an expression and the mark behind it. -/
def expressionUpTo (close : Char) : Reader Expr := do
  Expr.read? (← upTo close)

def parameters? : List Token → Option (List (String × IntType))
  | [] => some []
  | [.word x, .mark ':', .word type] => do return [(x, ← IntType.ofName? type)]
  | .word x :: .mark ':' :: .word type :: .mark ',' :: rest => do
    return (x, ← IntType.ofName? type) :: (← parameters? rest)
  | _ => none

/-- Takes the definition of a variable. -/
def definition : Reader (String × Expr) := do
  expect "let"
  let x ← word
  expect "="
  return (x, ← expressionUpTo ';')

def function : Reader Function := do
  expect "const fn"
  let name ← word
  expect "("
  let parameters ← parameters? (← upTo ')')
  expect "->"
  let result ← IntType.ofName? (← word)
  expect "\x7b"
  let locals ← many (.word "let") definition
  let value ← expressionUpTo '\x7d'
  return { name, parameters, result, locals, value }

end Reader

end DecodeTables.Emitted

import ColouredPetri.Expr.Token
import ColouredPetri.Text.Classes
import ColouredPetri.Text.Reader

/-!
Reading expressions. From loose to tight: `or`, `and`, `not`, comparisons, sums, products, the
minus sign, atoms. Operators of one level but comparisons associate to the left; comparisons do
not chain. Parentheses around one expression group it, and otherwise make a tuple.
-/

namespace ColouredPetri

namespace Parser

open Lexer Text Text.Reader

def around {α : Type} (p : Reader α) : Reader α := fun s =>
  match p (skipBlanks s) with
  | none => none
  | some (a, r) => some (a, skipBlanks r)

def continuesWord (c : Char) : Bool := Text.isAlphanumeric c || c == '_'

def keyword {α : Type} (w : String) (a : α) : Reader α := fun s =>
  match word w.toList a s with
  | none => none
  | some (a, []) => some (a, [])
  | some (a, c :: r) => if continuesWord c then none else some (a, c :: r)

def integer : Reader Expr := fun s =>
  match digits? s with
  | none => none
  | some (ds, r) =>
    match number? 10 ds with
    | none => none
    | some n => if n ≤ Int64.maxValue.toInt then some (.lit (.int (Int64.ofNat n)), r) else none

def string : Reader Expr := fun s =>
  match quoted? s with
  | none => none
  | some (t, r) => some (.lit (.str (String.ofList t)), r)

def truth (b : Bool) (upper lower : String) : Reader Expr :=
  orElse (keyword upper (.lit (.bool b))) (keyword lower (.lit (.bool b)))

def literal : Reader Expr :=
  orElse (truth true "True" "true") <|
  orElse (truth false "False" "false") <|
  orElse (keyword "dot" (.lit .dot)) <|
  orElse integer string

def name : Reader Expr := fun s =>
  match identifier? s with
  | none => none
  | some (t, r) =>
    let n := String.ofList t
    if keywords.contains n then none else some (.name n, r)

def comma : Reader Unit := around (word [','] ())

def commaSeparated (inner : Reader Expr) (s : List Char) : List Expr × List Char :=
  match inner s with
  | none => ([], s)
  | some (e, r) =>
    let (l, r') := many (both comma inner fun _ e => e) r
    (e :: l, r')

def parenthesised (inner : Reader Expr) : Reader Expr := fun s =>
  match word ['('] () s with
  | none => none
  | some (_, r) =>
    let (items, r) := commaSeparated inner r
    let (trailing, r) :=
      match comma r with
      | some (_, r') => (true, r')
      | none => (false, r)
    match around (word [')'] ()) r with
    | none => none
    | some (_, r) =>
      match items, trailing with
      | [e], false => some (e, r)
      | _, _ => some (.tuple items, r)

def atom (inner : Reader Expr) : Reader Expr :=
  around (orElse literal (orElse name (parenthesised inner)))

def signed (sign : Reader Unit) (f : Expr → Expr) (p : Reader Expr) :
    Nat → List Char → Option (Expr × List Char)
  | 0, s => p s
  | n + 1, s =>
    match around sign s with
    | none => p s
    | some (_, r) =>
      match signed sign f p n r with
      | none => p s
      | some (e, r') => some (f e, r')

def unary (inner : Reader Expr) : Reader Expr := fun s =>
  signed (word ['-'] ()) .neg (atom inner) s.length s

def leftChain {α : Type} (operand : Reader Expr) (op : Reader α) (f : α → Expr → Expr → Expr) :
    Reader Expr := fun s =>
  match operand s with
  | none => none
  | some (e, r) =>
    let (l, r') := many (both (around op) operand Prod.mk) r
    some (l.foldl (fun acc x => f x.1 acc x.2) e, r')

def productOp : Reader ArithOp :=
  orElse (word ['*'] .mul) <|
  orElse (word ['/', '/'] .div) <|
  orElse (word ['/'] .div) (word ['%'] .rem)

def sumOp : Reader ArithOp := orElse (word ['+'] .add) (word ['-'] .sub)

def compareOp : Reader CompareOp :=
  orElse (word ['=', '='] .eq) <|
  orElse (word ['!', '='] .ne) <|
  orElse (word ['<', '='] .le) <|
  orElse (word ['>', '='] .ge) <|
  orElse (word ['<'] .lt) (word ['>'] .gt)

def product (inner : Reader Expr) : Reader Expr := leftChain (unary inner) productOp .arith

def sum (inner : Reader Expr) : Reader Expr := leftChain (product inner) sumOp .arith

def comparison (inner : Reader Expr) : Reader Expr := fun s =>
  match sum inner s with
  | none => none
  | some (e, r) =>
    match both (around compareOp) (sum inner) (fun op right => Expr.compare op e right) r with
    | some x => some x
    | none => some (e, r)

def negation (inner : Reader Expr) : Reader Expr := fun s =>
  signed (keyword "not" ()) .not (comparison inner) s.length s

def conjunction (inner : Reader Expr) : Reader Expr :=
  leftChain (negation inner) (keyword "and" ()) fun _ => .and

def disjunction (inner : Reader Expr) : Reader Expr :=
  leftChain (conjunction inner) (keyword "or" ()) fun _ => .or

def nested : Nat → List Char → Option (Expr × List Char)
  | 0, _ => none
  | n + 1, s => disjunction (fun r => nested n r) s

def expression (s : List Char) : Option Expr :=
  match around (nested (s.length + 1)) s with
  | some (e, []) => some e
  | _ => none

end Parser

def Expr.parse (source : String) : Except EvalError Expr :=
  match Parser.expression source.toList with
  | some e => .ok e
  | none => .error (.malformed source)

end ColouredPetri

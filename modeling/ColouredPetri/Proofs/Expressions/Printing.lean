import ColouredPetri.Expr.Basic

namespace ColouredPetri

structure Style where
  doubleSlash : Bool
  doubleQuote : Bool

namespace Style

def quote (y : Style) (t : List Char) : Char :=
  if y.doubleQuote then if t.contains '"' then '\'' else '"'
  else if t.contains '\'' then '"' else '\''

end Style

def ArithOp.precedence : ArithOp → Nat
  | add => 4
  | sub => 4
  | mul => 5
  | div => 5
  | rem => 5

def ArithOp.sign (y : Style) : ArithOp → List Char
  | add => ['+']
  | sub => ['-']
  | mul => ['*']
  | div => if y.doubleSlash then ['/', '/'] else ['/']
  | rem => ['%']

def CompareOp.sign : CompareOp → List Char
  | eq => ['=', '=']
  | ne => ['!', '=']
  | lt => ['<']
  | le => ['<', '=']
  | gt => ['>']
  | ge => ['>', '=']

namespace Expr

def precedence : Expr → Nat
  | or _ _ => 0
  | and _ _ => 1
  | not _ => 2
  | compare _ _ _ => 3
  | arith op _ _ => op.precedence
  | neg _ => 6
  | lit _ => 7
  | name _ => 7
  | tuple _ => 7

def parens (b : Bool) (t : List Char) : List Char := if b then '(' :: (t ++ [')']) else t

def spaced (left sign right : List Char) : List Char := left ++ ' ' :: (sign ++ ' ' :: right)

mutual

def chars (y : Style) : Expr → List Char
  | lit (.str s) => y.quote s.toList :: (s.toList ++ [y.quote s.toList])
  | lit v => v.text.toList
  | name n => n.toList
  | tuple items => '(' :: (itemsChars y items ++ [')'])
  | neg e => '-' :: parens (e.precedence < 6) (chars y e)
  | arith op l r =>
    spaced (parens (l.precedence < op.precedence) (chars y l)) (op.sign y)
      (parens (r.precedence < op.precedence + 1) (chars y r))
  | compare op l r =>
    spaced (parens (l.precedence < 4) (chars y l)) op.sign
      (parens (r.precedence < 4) (chars y r))
  | and l r =>
    spaced (parens (l.precedence < 1) (chars y l)) "and".toList
      (parens (r.precedence < 2) (chars y r))
  | or l r =>
    spaced (parens (l.precedence < 0) (chars y l)) "or".toList
      (parens (r.precedence < 1) (chars y r))
  | not e => "not".toList ++ ' ' :: parens (e.precedence < 2) (chars y e)

def itemsChars (y : Style) : List Expr → List Char
  | [] => []
  | [e] => chars y e ++ [',']
  | e :: l => chars y e ++ moreChars y l

def moreChars (y : Style) : List Expr → List Char
  | [] => []
  | e :: l => ',' :: ' ' :: (chars y e ++ moreChars y l)

end

def print (y : Style) (e : Expr) : String := String.ofList (e.chars y)

def operandChars (y : Style) (level : Nat) (e : Expr) : List Char :=
  parens (e.precedence < level) (e.chars y)

end Expr

end ColouredPetri

import Mathlib.Data.Rat.Defs
import Mathlib.Algebra.Order.Field.Rat
import Mathlib.Data.List.Basic

/-!
# JSON texts

The grammar of JSON with everything a text may leave open: whitespace, escapes, and the spelling
of numbers. A syntax tree determines its bytes, and the names, strings and numbers in it determine
what they stand for.
-/

namespace JsonText

abbrev Bytes := List UInt8

inductive Space
  | space
  | tab
  | lineFeed
  | carriageReturn
deriving DecidableEq, Repr

def Space.byte : Space → UInt8
  | space => 0x20
  | tab => 0x09
  | lineFeed => 0x0A
  | carriageReturn => 0x0D

def spaces (ws : List Space) : Bytes := ws.map Space.byte

/-! ### Strings -/

/-- What may stand behind a backslash, apart from a code unit. -/
inductive Escape
  | quote
  | backslash
  | slash
  | backspace
  | formFeed
  | lineFeed
  | carriageReturn
  | tab
deriving DecidableEq, Repr

namespace Escape

def byte : Escape → UInt8
  | quote => 0x22
  | backslash => 0x5C
  | slash => 0x2F
  | backspace => 0x62
  | formFeed => 0x66
  | lineFeed => 0x6E
  | carriageReturn => 0x72
  | tab => 0x74

def codePoint : Escape → ℕ
  | quote => 0x22
  | backslash => 0x5C
  | slash => 0x2F
  | backspace => 0x08
  | formFeed => 0x0C
  | lineFeed => 0x0A
  | carriageReturn => 0x0D
  | tab => 0x09

end Escape

structure HexDigit where
  value : Fin 16
  upper : Bool
deriving DecidableEq, Repr

def HexDigit.byte (h : HexDigit) : UInt8 :=
  if h.value < 10 then UInt8.ofNat (0x30 + h.value)
  else if h.upper then UInt8.ofNat (0x41 + h.value - 10)
  else UInt8.ofNat (0x61 + h.value - 10)

inductive StringItem
  | char (c : Char) (hc : 0x20 ≤ c.toNat ∧ c.toNat ≠ 0x22 ∧ c.toNat ≠ 0x5C)
  | escape (e : Escape)
  | codeUnit (a b c d : HexDigit)
deriving DecidableEq, Repr

namespace StringItem

def bytes : StringItem → Bytes
  | char c _ => String.utf8EncodeChar c
  | escape e => [0x5C, e.byte]
  | codeUnit a b c d => [0x5C, 0x75, a.byte, b.byte, c.byte, d.byte]

def codePoint : StringItem → ℕ
  | char c _ => c.toNat
  | escape e => e.codePoint
  | codeUnit a b c d => ((a.value * 16 + b.value) * 16 + c.value) * 16 + d.value

def highSurrogate : StringItem → Option ℕ
  | codeUnit a b c d =>
    let u := (codeUnit a b c d).codePoint
    if 0xD800 ≤ u ∧ u < 0xDC00 then some (u - 0xD800) else none
  | _ => none

def lowSurrogate : StringItem → Option ℕ
  | codeUnit a b c d =>
    let u := (codeUnit a b c d).codePoint
    if 0xDC00 ≤ u ∧ u < 0xE000 then some (u - 0xDC00) else none
  | _ => none

end StringItem

def rawText (s : List StringItem) : Bytes := s.flatMap StringItem.bytes

/-- The code points a string stands for. A surrogate without its other half stands for itself. -/
def codePoints : List StringItem → List ℕ
  | [] => []
  | [item] => [item.codePoint]
  | item :: next :: rest =>
    match item.highSurrogate, next.lowSurrogate with
    | some high, some low => (0x10000 + high * 0x400 + low) :: codePoints rest
    | _, _ => item.codePoint :: codePoints (next :: rest)

def quoted (s : List StringItem) : Bytes := 0x22 :: rawText s ++ [0x22]

/-! ### Numbers -/

def digit (n : ℕ) : Fin 10 := Fin.ofNat 10 n

def digitByte (d : Fin 10) : UInt8 := UInt8.ofNat (0x30 + d)

def appendDigit (n : ℕ) (d : Fin 10) : ℕ := 10 * n + d

def digitsValue (ds : List (Fin 10)) : ℕ := ds.foldl appendDigit 0

theorem le_foldl_appendDigit (ds : List (Fin 10)) (m : ℕ) : m ≤ ds.foldl appendDigit m := by
  induction ds generalizing m with
  | nil => exact le_rfl
  | cons d ds ih =>
    have hstep : m ≤ appendDigit m d := by
      unfold appendDigit
      omega
    exact hstep.trans (ih _)

inductive Sign
  | unsigned
  | plus
  | minus
deriving DecidableEq, Repr

def Sign.bytes : Sign → Bytes
  | unsigned => []
  | plus => [0x2B]
  | minus => [0x2D]

structure Exponent where
  upper : Bool
  sign : Sign
  digits : List (Fin 10)
  digits_ne_nil : digits ≠ []
deriving DecidableEq, Repr

namespace Exponent

def bytes (e : Exponent) : Bytes :=
  (if e.upper then 0x45 else 0x65) :: e.sign.bytes ++ e.digits.map digitByte

def value (e : Exponent) : ℤ :=
  if e.sign = .minus then -digitsValue e.digits else digitsValue e.digits

end Exponent

/-- A number without superfluous leading zeros; an empty fraction is one that is not written. -/
structure Number where
  negative : Bool
  integer : List (Fin 10)
  fraction : List (Fin 10)
  exponent : Option Exponent
  integer_ne_nil : integer ≠ []
  no_leading_zero : integer = [0] ∨ integer.head? ≠ some 0
deriving DecidableEq, Repr

namespace Number

def fractionBytes (n : Number) : Bytes :=
  if n.fraction = [] then [] else 0x2E :: n.fraction.map digitByte

def exponentBytes (n : Number) : Bytes := n.exponent.elim [] Exponent.bytes

def bytes (n : Number) : Bytes :=
  (if n.negative then [0x2D] else []) ++ n.integer.map digitByte ++ n.fractionBytes ++
    n.exponentBytes

def value (n : Number) : ℚ :=
  (if n.negative then -1 else 1) * digitsValue (n.integer ++ n.fraction) *
    10 ^ (n.exponent.elim 0 Exponent.value - n.fraction.length)

theorem value_of_integer {n : Number} (hsign : n.negative = false) (hfraction : n.fraction = [])
    (hexponent : n.exponent = none) : n.value = digitsValue n.integer := by
  simp [value, hsign, hfraction, hexponent]

end Number

/-! ### Values -/

inductive Literal
  | null
  | true
  | false
deriving DecidableEq, Repr

def Literal.bytes : Literal → Bytes
  | null => [0x6E, 0x75, 0x6C, 0x6C]
  | true => [0x74, 0x72, 0x75, 0x65]
  | false => [0x66, 0x61, 0x6C, 0x73, 0x65]

mutual

inductive Value
  | literal (l : Literal)
  | number (n : Number)
  | string (s : List StringItem)
  | emptyArray (inner : List Space)
  | array (elements : Elements)
  | emptyObject (inner : List Space)
  | object (members : Members)

inductive Elements
  | last (before : List Space) (v : Value) (after : List Space)
  | more (before : List Space) (v : Value) (after : List Space) (rest : Elements)

inductive Members
  | last (before : List Space) (name : List StringItem) (beforeColon afterColon : List Space)
    (v : Value) (after : List Space)
  | more (before : List Space) (name : List StringItem) (beforeColon afterColon : List Space)
    (v : Value) (after : List Space) (rest : Members)

end

mutual

def Value.bytes : Value → Bytes
  | .literal l => l.bytes
  | .number n => n.bytes
  | .string s => quoted s
  | .emptyArray inner => 0x5B :: spaces inner ++ [0x5D]
  | .array elements => 0x5B :: elements.bytes ++ [0x5D]
  | .emptyObject inner => 0x7B :: spaces inner ++ [0x7D]
  | .object members => 0x7B :: members.bytes ++ [0x7D]

def Elements.bytes : Elements → Bytes
  | .last before v after => spaces before ++ v.bytes ++ spaces after
  | .more before v after rest =>
    spaces before ++ v.bytes ++ spaces after ++ 0x2C :: rest.bytes

def Members.bytes : Members → Bytes
  | .last before name beforeColon afterColon v after =>
    spaces before ++ quoted name ++ spaces beforeColon ++ 0x3A :: spaces afterColon ++ v.bytes ++
      spaces after
  | .more before name beforeColon afterColon v after rest =>
    spaces before ++ quoted name ++ spaces beforeColon ++ 0x3A :: spaces afterColon ++ v.bytes ++
      spaces after ++ 0x2C :: rest.bytes

end

/-- The members of the object itself, with the names they stand for. -/
def Members.toList : Members → List (List ℕ × Value)
  | .last _ name _ _ v _ => [(codePoints name, v)]
  | .more _ name _ _ v _ rest => (codePoints name, v) :: rest.toList

def Value.topLevel : Value → List (List ℕ × Value)
  | .object members => members.toList
  | _ => []

/-- The values of the object's own members with a name. -/
def Value.named (v : Value) (name : List ℕ) : List Value :=
  (v.topLevel.filter fun m => m.1 = name).map Prod.snd

structure ObjectText where
  before : List Space
  body : Value
  after : List Space
  isObject : (∃ inner, body = .emptyObject inner) ∨ ∃ members, body = .object members

def ObjectText.bytes (doc : ObjectText) : Bytes :=
  spaces doc.before ++ doc.body.bytes ++ spaces doc.after

end JsonText

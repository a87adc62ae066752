import Mathlib.Tactic.IntervalCases

/-!
# Quoted JSON strings

Writing a text as a JSON string and reading it back. Quotes, backslashes and control characters are
escaped, every other character stands for itself.
-/

namespace JsonQuoting

def hexDigit (n : ℕ) : Char := if n < 10 then Char.ofNat (0x30 + n) else Char.ofNat (0x57 + n)

def hexValue (c : Char) : ℕ := if c.isDigit then c.toNat - 0x30 else c.toNat - 0x57

def escapeChar (c : Char) : List Char :=
  if c = '"' then ['\\', '"']
  else if c = '\\' then ['\\', '\\']
  else if c = Char.ofNat 0x08 then ['\\', 'b']
  else if c = '\t' then ['\\', 't']
  else if c = '\n' then ['\\', 'n']
  else if c = Char.ofNat 0x0c then ['\\', 'f']
  else if c = '\r' then ['\\', 'r']
  else if c.toNat < 0x20 then
    ['\\', 'u', '0', '0', hexDigit (c.toNat / 16), hexDigit (c.toNat % 16)]
  else [c]

def escape (t : List Char) : List Char := t.flatMap escapeChar

def unescape : Char → Option Char
  | '"' => some '"'
  | '\\' => some '\\'
  | '/' => some '/'
  | 'b' => some (Char.ofNat 0x08)
  | 'f' => some (Char.ofNat 0x0c)
  | 'n' => some '\n'
  | 'r' => some '\r'
  | 't' => some '\t'
  | _ => none

/-- Read up to the closing quote, and give the rest behind it. -/
def unquote : List Char → Option (List Char × List Char)
  | [] => none
  | '"' :: rest => some ([], rest)
  | '\\' :: 'u' :: a :: b :: c :: d :: rest =>
    let code := ((hexValue a * 16 + hexValue b) * 16 + hexValue c) * 16 + hexValue d
    (unquote rest).map fun (t, rest) => (Char.ofNat code :: t, rest)
  | '\\' :: e :: rest =>
    (unescape e).bind fun c => (unquote rest).map fun (t, rest) => (c :: t, rest)
  | c :: rest => (unquote rest).map fun (t, rest) => (c :: t, rest)

theorem unquote_plain {c : Char} (hquote : c ≠ '"') (hescape : c ≠ '\\') (rest : List Char) :
    unquote (c :: rest) = (unquote rest).map fun (t, rest) => (c :: t, rest) := by
  rw [unquote]
  · exact hquote
  · rintro _ _ _ _ _ rfl
    exact absurd rfl hescape
  · rintro _ _ rfl
    exact absurd rfl hescape

/-- An escaped character is read as the character. -/
theorem unquote_escapeChar (c : Char) (rest : List Char) :
    unquote (escapeChar c ++ rest) = (unquote rest).map fun (t, rest) => (c :: t, rest) := by
  by_cases hcontrol : c.toNat < 0x20
  · obtain ⟨n, hn, rfl⟩ : ∃ n < 0x20, c = Char.ofNat n :=
      ⟨c.toNat, hcontrol, (Char.ofNat_toNat c).symm⟩
    interval_cases n <;> rfl
  · by_cases hquote : c = '"'
    · subst hquote
      rfl
    by_cases hescape : c = '\\'
    · subst hescape
      rfl
    have hplain : escapeChar c = [c] := by
      have hne {d : Char} (hd : d.toNat < 0x20) : c ≠ d := by
        rintro rfl
        exact hcontrol hd
      simp only [escapeChar, hquote, hescape, hcontrol, if_false]
      rw [if_neg (hne (by decide)), if_neg (hne (by decide)), if_neg (hne (by decide)),
        if_neg (hne (by decide)), if_neg (hne (by decide))]
    rw [hplain]
    exact unquote_plain hquote hescape rest

theorem unquote_escape (t rest : List Char) :
    unquote (escape t ++ '"' :: rest) = some (t, rest) := by
  induction t with
  | nil => rfl
  | cons c t ih =>
    have happend : escape (c :: t) ++ '"' :: rest = escapeChar c ++ (escape t ++ '"' :: rest) := by
      simp [escape]
    rw [happend, unquote_escapeChar, ih]
    rfl

end JsonQuoting

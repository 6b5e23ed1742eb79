import SchemaBindings.Json.Text
import SchemaBindings.Proofs.Text.Lines

/-! Literals can be read back: a JSON string with the reader of JSON texts, an ASCII literal with a
reader of its own. -/

namespace SchemaBindings.Text

open Json (hexDigit? readQuoted)

/-- What stands before the first of a character is taken up to it. -/
theorem takeWhile_append_stop {c : Char} {text : List Char} (free : c ∉ text) (rest : List Char) :
    (text ++ c :: rest).takeWhile (· != c) = text := by
  have plain : ∀ d ∈ text, (d != c) = true := by
    rintro d member
    refine bne_iff_ne.2 ?_
    rintro rfl
    exact free member
  rw [List.takeWhile_append_of_pos plain, List.takeWhile_cons_of_neg (by simp), List.append_nil]

section Digits

/-- The number that hexadecimal digits write behind those that are read. -/
def hexValue? (n : Nat) : List Char → Option Nat
  | [] => some n
  | c :: rest => (hexDigit? c).bind fun d => hexValue? (16 * n + d) rest

theorem hexDigit?_digitChar : ∀ d < 16, hexDigit? d.digitChar = some d := by decide

theorem hexValue?_append (n : Nat) (xs ys : List Char) :
    hexValue? n (xs ++ ys) = (hexValue? n xs).bind fun m => hexValue? m ys := by
  induction xs generalizing n with
  | nil => rfl
  | cons c rest ih =>
    rw [List.cons_append, hexValue?, hexValue?, Option.bind_assoc]
    exact congrArg _ (funext fun d => ih _)

theorem hexValue?_hex (n : Nat) : hexValue? 0 (hex n) = some n := by
  induction n using Nat.strongRecOn with
  | ind n ih =>
    rw [hex, Nat.toDigits_eq_if (by decide)]
    split
    · rename_i small
      simp [hexValue?, hexDigit?_digitChar n small]
    · have last := hexDigit?_digitChar (n % 16) (Nat.mod_lt _ (by decide))
      have before := ih (n / 16) (by omega)
      rw [hex] at before
      simp only [hexValue?_append, before, hexValue?, last, Option.bind_some]
      exact congrArg some (Nat.div_add_mod n 16)

end Digits

section Json

/-- Puts a character in front of what is read. -/
def before (c : Char) (read : List Char × List Char) : List Char × List Char :=
  (c :: read.1, read.2)

theorem readQuoted_short {e c : Char} (means : Json.shortEscape? e = some c) (rest : List Char) :
    readQuoted ('\\' :: e :: rest) = (readQuoted rest).map (before c) := by
  rw [readQuoted]
  · rw [means]
    cases readQuoted rest <;> rfl
  · exact fun _ _ _ _ _ same => absurd same (ne_u_of_shortEscape? means)

theorem readQuoted_unit {a b c d e : Char} (unit : Json.codeUnit? a b c d = some e.toNat)
    (small : e.toNat < 0x20) (rest : List Char) :
    readQuoted ('\\' :: 'u' :: a :: b :: c :: d :: rest) =
      (readQuoted rest).map (before e) := by
  have high : Json.isHighHalf e.toNat = false := by simp [Json.isHighHalf]; omega
  have low : Json.isLowHalf e.toNat = false := by simp [Json.isLowHalf]; omega
  rw [readQuoted, unit]
  simp only [Option.bind_eq_bind, Option.bind_some, high, low, Char.ofNat_toNat]
  cases readQuoted rest <;> rfl

theorem readQuoted_plain {c : Char} (visible : 0x20 ≤ c.toNat) (quote : c ≠ '"')
    (escape : c ≠ '\\') (rest : List Char) :
    readQuoted (c :: rest) = (readQuoted rest).map (before c) := by
  have plain : ¬ (c == '\\' || decide (c.toNat < 0x20)) = true := by
    simp [escape, Nat.not_lt.2 visible]
  rw [readQuoted, if_neg plain]
  · cases readQuoted rest <;> rfl
  · exact quote
  · exact fun _ _ _ _ _ same => absurd same escape
  · exact fun _ _ same => absurd same escape

theorem readQuoted_jsonChar (c : Char) (rest : List Char) :
    readQuoted (jsonChar c ++ rest) = (readQuoted rest).map (before c) := by
  generalize jsonChar c = text, jsonWritten_jsonChar c = written
  cases written with
  | short _ means => exact readQuoted_short means rest
  | unit control _ _ => exact readQuoted_unit (codeUnit?_control c.toNat control) control rest
  | plain visible quote backslash => exact readQuoted_plain visible quote backslash rest

theorem readQuoted_jsonChars (text rest : List Char) :
    readQuoted (text.flatMap jsonChar ++ '"' :: rest) = some (text, rest) := by
  induction text with
  | nil => rfl
  | cons c later ih =>
    rw [List.flatMap_cons, List.append_assoc, readQuoted_jsonChar, ih]
    rfl

/-- A JSON string at the start of a text, and the text behind it. -/
def quoted? : List Char → Option (String × List Char)
  | '"' :: rest => (readQuoted rest).map fun (text, rest) => (String.ofList text, rest)
  | _ => none

theorem toList_jsonString_append (text : String) (rest : List Char) :
    (jsonString text).toList ++ rest = '"' :: (text.toList.flatMap jsonChar ++ '"' :: rest) := by
  rw [jsonString, String.toList_ofList, List.cons_append, List.cons_append, List.append_assoc,
    List.singleton_append]

theorem quoted?_jsonString (text : String) (rest : List Char) :
    quoted? ((jsonString text).toList ++ rest) = some (text, rest) := by
  rw [toList_jsonString_append, quoted?, readQuoted_jsonChars]
  simp only [Option.map_some, String.ofList_toList]

end Json

section Ascii

/-- The characters of an ASCII literal up to its closing quote, and the text after the quote. Inside
the braces of a number, `number` is what has been read of it. -/
def readAscii (number : Option Nat) : List Char → Option (List Char × List Char)
  | [] => none
  | c :: rest =>
    match number with
    | some n =>
      if c = '\x7d' then (readAscii none rest).map (before (Char.ofNat n))
      else (hexDigit? c).bind fun d => readAscii (some (16 * n + d)) rest
    | none =>
      if c = '"' then some ([], rest)
      else if c = '\\' then
        match rest with
        | 'u' :: '\x7b' :: rest => readAscii (some 0) rest
        | e :: rest => (asciiEscape? e).bind fun c => (readAscii none rest).map (before c)
        | [] => none
      else (readAscii none rest).map (before c)

theorem readAscii_digits {n m : Nat} {digits : List Char} (value : hexValue? n digits = some m)
    (rest : List Char) :
    readAscii (some n) (digits ++ '\x7d' :: rest) =
      (readAscii none rest).map (before (Char.ofNat m)) := by
  induction digits generalizing n with
  | nil =>
    cases value
    rw [List.nil_append, readAscii, if_pos rfl]
  | cons c later ih =>
    obtain ⟨d, digit, value⟩ := Option.bind_eq_some_iff.1 value
    have open' : c ≠ '\x7d' := by
      rintro rfl
      cases digit
    rw [List.cons_append, readAscii, if_neg open', digit]
    exact ih value

theorem readAscii_numbered (c : Char) (rest : List Char) :
    readAscii none (numbered c ++ rest) = (readAscii none rest).map (before c) := by
  have inside := readAscii_digits (hexValue?_hex c.toNat) rest
  rw [Char.ofNat_toNat] at inside
  rw [← inside, numbered, List.append_assoc, List.append_assoc, List.singleton_append]
  rfl

theorem readAscii_short {e c : Char} (means : asciiEscape? e = some c) (rest : List Char) :
    readAscii none ('\\' :: e :: rest) = (readAscii none rest).map (before c) := by
  rw [readAscii.eq_def]
  simp only [if_true, if_neg (show '\\' ≠ '"' by decide)]
  split
  · rename_i same
    exact absurd (List.cons.inj same).1 (ne_u_of_asciiEscape? means)
  · rename_i same
    obtain ⟨rfl, rfl⟩ := List.cons.inj same
    rw [means, Option.bind_some]
  · rename_i same
    cases same

theorem readAscii_asciiChar (c : Char) (rest : List Char) :
    readAscii none (asciiChar c ++ rest) = (readAscii none rest).map (before c) := by
  generalize asciiChar c = text, asciiWritten_asciiChar c = written
  cases written with
  | short _ means => exact readAscii_short means rest
  | plain _ quote backslash =>
    rw [List.singleton_append, readAscii.eq_def]
    simp only [if_neg quote, if_neg backslash]
  | number => exact readAscii_numbered c rest

theorem readAscii_asciiEscaped (text : String) (rest : List Char) :
    readAscii none ((asciiEscaped text).toList ++ '"' :: rest) = some (text.toList, rest) := by
  rw [asciiEscaped, String.toList_ofList]
  induction text.toList with
  | nil => rw [List.flatMap_nil, List.nil_append, readAscii.eq_def]; rfl
  | cons c later ih =>
    rw [List.flatMap_cons, List.append_assoc, readAscii_asciiChar, ih]
    rfl

/-- An ASCII literal at the start of a text, and the text behind it. -/
def asciiQuoted? : List Char → Option (String × List Char)
  | '"' :: rest => (readAscii none rest).map fun (text, rest) => (String.ofList text, rest)
  | _ => none

theorem asciiQuoted?_asciiEscaped (text : String) (rest : List Char) :
    asciiQuoted? ('"' :: (asciiEscaped text).toList ++ '"' :: rest) = some (text, rest) := by
  rw [List.cons_append, asciiQuoted?, readAscii_asciiEscaped]
  simp only [Option.map_some, String.ofList_toList]

end Ascii

end SchemaBindings.Text

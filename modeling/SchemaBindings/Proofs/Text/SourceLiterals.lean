import SchemaBindings.Binding.Unsupported
import SchemaBindings.Proofs.Text.Literals
import SchemaBindings.Proofs.Text.UnicodeEscapes

/-! The string literals of the four languages, read with the escapes of each. An escape that is in the
language but in no literal written here (by octal digits, say, or over the end of a line) is refused,
so what is read is what the language reads. Whether a compiler takes a character in a source text at
all is not part of the reading. -/

namespace SchemaBindings.Text

/-- The literal that stands for a text in attributes, annotations, constants and keys. -/
def literal : Language → String → String
  | .rust, text => "\"" ++ asciiEscaped text ++ "\""
  | .java, text | .go, text | .typescript, text => jsonString text

/-- How literals hold a character. -/
def literalChar : Language → Char → List Char
  | .rust => asciiChar
  | .java | .go | .typescript => jsonChar

theorem toList_literal (language : Language) (text : String) :
    (literal language text).toList =
      '"' :: text.toList.flatMap (literalChar language) ++ ['"'] := by
  cases language <;> simp [literal, literalChar, jsonString, asciiEscaped]

theorem toList_literal_append (language : Language) (text : String) (rest : List Char) :
    (literal language text).toList ++ rest =
      '"' :: (text.toList.flatMap (literalChar language) ++ '"' :: rest) := by
  rw [toList_literal, List.cons_append, List.cons_append, List.append_assoc,
    List.singleton_append]

section Inside

/-- What stands between the quotes of a literal: a quote in it has a backslash before it, and the last
backslash has something behind it. -/
inductive Inside : List Char → Prop
  | nil : Inside []
  | plain {c : Char} {text : List Char} (quote : c ≠ '"') (backslash : c ≠ '\\')
    (later : Inside text) : Inside (c :: text)
  | escaped {c : Char} {text : List Char} (later : Inside text) : Inside ('\\' :: c :: text)

theorem Inside.append {start text : List Char} (first : Inside start) (later : Inside text) :
    Inside (start ++ text) := by
  induction first with
  | nil => exact later
  | plain quote backslash _ ih => exact .plain quote backslash ih
  | escaped _ ih => exact .escaped ih

/-- Neither a quote nor a backslash is among these. -/
def Plain (text : List Char) : Prop := ∀ c ∈ text, c ≠ '"' ∧ c ≠ '\\'

instance (text : List Char) : Decidable (Plain text) :=
  List.decidableBAll (fun c : Char => c ≠ '"' ∧ c ≠ '\\') text

theorem Plain.inside {text : List Char} (plain : Plain text) : Inside text := by
  induction text with
  | nil => exact .nil
  | cons c text ih =>
    have ⟨first, later⟩ := List.forall_mem_cons.1 plain
    exact .plain first.1 first.2 (ih later)

theorem inside_flatMap {write : Char → List Char} (each : ∀ c, Inside (write c))
    (text : List Char) : Inside (text.flatMap write) := by
  induction text with
  | nil => exact .nil
  | cons c text ih =>
    rw [List.flatMap_cons]
    exact (each c).append ih

theorem JsonWritten.inside {c : Char} {text : List Char} (written : JsonWritten c text) :
    Inside text := by
  cases written with
  | short _ _ => exact .escaped .nil
  | unit control _ _ =>
    have digits : ∀ n < 0x20, Plain ['0', '0', (n / 16).digitChar, (n % 16).digitChar] := by
      decide
    exact .escaped (digits c.toNat control).inside
  | plain _ quote backslash => exact .plain quote backslash .nil

theorem AsciiWritten.inside {c : Char} {text : List Char} (written : AsciiWritten c text) :
    Inside text := by
  cases written with
  | short _ _ => exact .escaped .nil
  | plain _ quote backslash => exact .plain quote backslash .nil
  | number =>
    have start : Plain ['\x7b'] := by decide
    have digits : Plain (hex c.toNat) := forall_mem_hex (by decide) c.toNat
    have close : Plain ['\x7d'] := by decide
    exact .escaped ((start.inside.append digits.inside).append close.inside)

end Inside

section Reading

/-- The escapes of a language. -/
structure Escapes where
  /-- What a backslash and one more character stand for. -/
  short? : Char → Option Char
  /-- What a backslash and `u` stand for in front of a text, and how much of the text is theirs. -/
  number? : List Char → Option (Char × Nat)

def javaShort? : Char → Option Char
  | 'b' => some '\x08'
  | 's' => some ' '
  | 't' => some '\t'
  | 'n' => some '\n'
  | 'f' => some '\x0c'
  | 'r' => some '\r'
  | '"' => some '"'
  | '\'' => some '\''
  | '\\' => some '\\'
  | _ => none

def goShort? : Char → Option Char
  | 'a' => some '\x07'
  | 'b' => some '\x08'
  | 'f' => some '\x0c'
  | 'n' => some '\n'
  | 'r' => some '\r'
  | 't' => some '\t'
  | 'v' => some '\x0b'
  | '"' => some '"'
  | '\\' => some '\\'
  | _ => none

/-- A character that no escape begins with stands for itself. -/
def typescriptShort? : Char → Option Char
  | 'b' => some '\x08'
  | 'f' => some '\x0c'
  | 'n' => some '\n'
  | 'r' => some '\r'
  | 't' => some '\t'
  | 'v' => some '\x0b'
  | c => if c.isDigit ∨ c ∈ ['x', 'u', '\n', '\r', '\u2028', '\u2029'] then none else some c

def numberedChar? (n : Nat) : Option Char :=
  if n.isValidChar then some (Char.ofNat n) else none

/-- A character by the four digits of its code unit. -/
def fourDigits? : List Char → Option (Char × Nat)
  | a :: b :: c :: d :: _ =>
    (Json.codeUnit? a b c d).bind fun unit => (numberedChar? unit).map fun c => (c, 4)
  | _ => none

/-- A character by one to six digits between braces. -/
def braced? : List Char → Option (Char × Nat)
  | '\x7b' :: rest =>
    let digits := rest.takeWhile (· != '\x7d')
    if 0 < digits.length ∧ digits.length ≤ 6 ∧ digits.length < rest.length then
      ((hexValue? 0 digits).bind numberedChar?).map fun c => (c, digits.length + 2)
    else none
  | _ => none

/-- Java has translated its numbers before it looks for literals. -/
def escapes : Language → Escapes
  | .java => ⟨javaShort?, fun _ => none⟩
  | .rust => ⟨asciiEscape?, braced?⟩
  | .go => ⟨goShort?, fourDigits?⟩
  | .typescript => ⟨typescriptShort?, fourDigits?⟩

/-- The characters of a literal up to its closing quote, and the text behind the quote. What belongs to
a number that has been read is passed over first. -/
def readEscaped (e : Escapes) : Nat → List Char → Option (List Char × List Char)
  | _, [] => none
  | passed + 1, _ :: rest => readEscaped e passed rest
  | 0, '"' :: rest => some ([], rest)
  | 0, '\\' :: 'u' :: rest =>
    (e.number? rest).bind fun (c, width) => (readEscaped e width rest).map (before c)
  | 0, '\\' :: c :: rest => (e.short? c).bind fun c => (readEscaped e 0 rest).map (before c)
  | 0, c :: rest =>
    if c = '\\' ∨ c = '\n' ∨ c = '\r' then none else (readEscaped e 0 rest).map (before c)

/-- A literal at the start of a text, and the text behind it. -/
def escapedQuoted? (e : Escapes) : List Char → Option (String × List Char)
  | '"' :: rest => (readEscaped e 0 rest).map fun (text, rest) => (String.ofList text, rest)
  | _ => none

/-- What is made of a source text before it is cut into tokens. -/
def prepared? : Language → List Char → Option (List Char)
  | .java, source => translate? source
  | .rust, source | .go, source | .typescript, source => some source

/-- The text of the literal at the start of a source text, and what is behind the literal. -/
def readLiteral? (language : Language) (source : List Char) : Option (String × List Char) :=
  (prepared? language source).bind (escapedQuoted? (escapes language))

end Reading

section Escapes

variable {e : Escapes}

theorem readEscaped_short {c d : Char} (plain : c ≠ 'u') (means : e.short? c = some d)
    (rest : List Char) :
    readEscaped e 0 ('\\' :: c :: rest) = (readEscaped e 0 rest).map (before d) := by
  rw [readEscaped]
  · rw [means, Option.bind_some]
  · exact plain

theorem readEscaped_plain {c : Char} (quote : c ≠ '"') (backslash : c ≠ '\\') (feed : c ≠ '\n')
    (back : c ≠ '\r') (rest : List Char) :
    readEscaped e 0 (c :: rest) = (readEscaped e 0 rest).map (before c) := by
  rw [readEscaped, if_neg (by simp [backslash, feed, back])]
  · exact quote
  · exact fun _ same => absurd same backslash
  · exact fun _ _ same => absurd same backslash

theorem readEscaped_visible {c : Char} (visible : 0x20 ≤ c.toNat) (quote : c ≠ '"')
    (backslash : c ≠ '\\') (rest : List Char) :
    readEscaped e 0 (c :: rest) = (readEscaped e 0 rest).map (before c) := by
  refine readEscaped_plain quote backslash ?_ ?_ rest
  · rintro rfl
    exact absurd visible (by decide)
  · rintro rfl
    exact absurd visible (by decide)

theorem readEscaped_length (passed rest : List Char) :
    readEscaped e passed.length (passed ++ rest) = readEscaped e 0 rest := by
  induction passed with
  | nil => rfl
  | cons c passed ih =>
    rw [List.length_cons, List.cons_append, readEscaped]
    exact ih

theorem readEscaped_number {number rest : List Char} {c : Char}
    (means : e.number? (number ++ rest) = some (c, number.length)) :
    readEscaped e 0 ('\\' :: 'u' :: (number ++ rest)) = (readEscaped e 0 rest).map (before c) := by
  rw [readEscaped, means, ← readEscaped_length number rest]
  rfl

theorem numberedChar?_toNat (c : Char) : numberedChar? c.toNat = some c := by
  have valid : c.toNat.isValidChar := c.valid
  rw [numberedChar?, if_pos valid, Char.ofNat_toNat]

theorem fourDigits?_unit {a b c d char : Char} (value : Json.codeUnit? a b c d = some char.toNat)
    (rest : List Char) : fourDigits? ([a, b, c, d] ++ rest) = some (char, 4) := by
  simp only [List.cons_append, List.nil_append, fourDigits?, value, Option.bind_some,
    numberedChar?_toNat, Option.map_some]

theorem length_hex_toNat (c : Char) : 0 < (hex c.toNat).length ∧ (hex c.toNat).length ≤ 6 := by
  have small : c.toNat < 16 ^ 6 := by
    rcases c.valid with low | ⟨_, high⟩
    · exact Nat.lt_trans low (by decide)
    · exact Nat.lt_trans high (by decide)
  exact ⟨Nat.length_toDigits_pos, (Nat.length_toDigits_le_iff (by decide) (by decide)).2 small⟩

theorem braced?_hex (c : Char) (rest : List Char) :
    braced? ('\x7b' :: hex c.toNat ++ ['\x7d'] ++ rest) =
      some (c, ('\x7b' :: hex c.toNat ++ ['\x7d']).length) := by
  have free : '\x7d' ∉ hex c.toNat := fun member =>
    forall_mem_hex (P := fun d => d ≠ '\x7d') (by decide) c.toNat _ member rfl
  have taken : (hex c.toNat ++ ['\x7d'] ++ rest).takeWhile (· != '\x7d') = hex c.toNat := by
    rw [List.append_assoc]
    exact takeWhile_append_stop free rest
  obtain ⟨one, few⟩ := length_hex_toNat c
  have closed : (hex c.toNat).length < (hex c.toNat ++ ['\x7d'] ++ rest).length := by
    simp only [List.length_append, List.length_singleton]
    omega
  rw [List.cons_append, List.cons_append, braced?, taken, if_pos ⟨one, few, closed⟩,
    hexValue?_hex, Option.bind_some, numberedChar?_toNat]
  simp

/-- Read back character by character, a written text is read back as a whole. -/
theorem escapedQuoted?_flatMap {write : Char → List Char}
    (each : ∀ c rest, readEscaped e 0 (write c ++ rest) = (readEscaped e 0 rest).map (before c))
    (text : String) (rest : List Char) :
    escapedQuoted? e ('"' :: (text.toList.flatMap write ++ '"' :: rest)) = some (text, rest) := by
  have inside : readEscaped e 0 (text.toList.flatMap write ++ '"' :: rest) =
      some (text.toList, rest) := by
    induction text.toList with
    | nil => rw [List.flatMap_nil, List.nil_append, readEscaped]
    | cons c later ih =>
      rw [List.flatMap_cons, List.append_assoc, each, ih]
      rfl
  rw [escapedQuoted?, inside]
  simp only [Option.map_some, String.ofList_toList]

end Escapes

section ReadingBack

/-- The escapes of JSON that have no digits, but for the slash, are among these. -/
def HoldsJson (e : Escapes) : Prop :=
  ∀ c ∈ "\"\\bfnrt".toList, e.short? c = Json.shortEscape? c

instance (e : Escapes) : Decidable (HoldsJson e) :=
  List.decidableBAll (fun c : Char => e.short? c = Json.shortEscape? c) _

theorem holdsJson_escapes {language : Language} (json : language ≠ .rust) :
    HoldsJson (escapes language) := by
  cases language with
  | rust => exact absurd rfl json
  | java => decide
  | go => decide
  | typescript => decide

theorem readEscaped_json {e : Escapes} (json : HoldsJson e) {c d : Char}
    (listed : c ∈ "\"\\bfnrt".toList) (means : Json.shortEscape? c = some d) (rest : List Char) :
    readEscaped e 0 ('\\' :: c :: rest) = (readEscaped e 0 rest).map (before d) :=
  readEscaped_short (ne_u_of_shortEscape? means) ((json c listed).trans means) rest

theorem readEscaped_jsonChar {e : Escapes} (json : HoldsJson e) (numbers : e.number? = fourDigits?)
    (c : Char) (rest : List Char) :
    readEscaped e 0 (jsonChar c ++ rest) = (readEscaped e 0 rest).map (before c) := by
  generalize jsonChar c = text, jsonWritten_jsonChar c = written
  cases written with
  | short listed means => exact readEscaped_json json listed means rest
  | unit control _ _ =>
    have unit := fourDigits?_unit (codeUnit?_control c.toNat control) rest
    exact readEscaped_number ((congrFun numbers _).trans unit)
  | plain visible quote backslash => exact readEscaped_visible visible quote backslash rest

theorem readEscaped_asciiChar (c : Char) (rest : List Char) :
    readEscaped (escapes .rust) 0 (asciiChar c ++ rest) =
      (readEscaped (escapes .rust) 0 rest).map (before c) := by
  generalize asciiChar c = text, asciiWritten_asciiChar c = written
  cases written with
  | short _ means => exact readEscaped_short (ne_u_of_asciiEscape? means) means rest
  | plain visible quote backslash => exact readEscaped_visible visible quote backslash rest
  | number => exact readEscaped_number (braced?_hex c rest)

theorem readEscaped_literalChar {language : Language} (direct : language ≠ .java) (c : Char)
    (rest : List Char) :
    readEscaped (escapes language) 0 (literalChar language c ++ rest) =
      (readEscaped (escapes language) 0 rest).map (before c) := by
  cases language with
  | java => exact absurd rfl direct
  | rust => exact readEscaped_asciiChar c rest
  | go =>
    have json : HoldsJson (escapes .go) := holdsJson_escapes (by decide)
    exact readEscaped_jsonChar json rfl c rest
  | typescript =>
    have json : HoldsJson (escapes .typescript) := holdsJson_escapes (by decide)
    exact readEscaped_jsonChar json rfl c rest

/-- The translation leaves of a written character what stands for it in a literal: a control character
that was written by its number is there as it is. -/
theorem translate?_jsonChar (c : Char) : ∃ text,
    (∀ rest, translate? (jsonChar c ++ rest) = (translate? rest).map (text ++ ·)) ∧
    ∀ rest, readEscaped (escapes .java) 0 (text ++ rest) =
      (readEscaped (escapes .java) 0 rest).map (before c) := by
  generalize jsonChar c = written, jsonWritten_jsonChar c = means
  cases means with
  | @short e listed means =>
    have json : HoldsJson (escapes .java) := holdsJson_escapes (by decide)
    exact ⟨['\\', e], translate?_backslash (ne_u_of_shortEscape? means),
      readEscaped_json json listed means⟩
  | unit control feed back =>
    refine ⟨[c], fun rest => ?_, readEscaped_plain ?_ ?_ feed back⟩
    · have whole := translate?_unit (codeUnit?_control c.toNat control) rest
      rw [unitChar_toNat] at whole
      exact whole
    · rintro rfl
      exact absurd control (by decide)
    · rintro rfl
      exact absurd control (by decide)
  | plain visible quote backslash =>
    exact ⟨[c], translate?_cons backslash, readEscaped_visible visible quote backslash⟩

/-- What is read of a literal behind its opening quote once the source text is translated. -/
def readTranslated (source : List Char) : Option (List Char × List Char) :=
  (translate? source).bind (readEscaped (escapes .java) 0)

theorem readTranslated_quote (rest : List Char) :
    readTranslated ('"' :: rest) = (translate? rest).map fun rest => ([], rest) := by
  rw [readTranslated, translate?_cons (by decide), Option.bind_map, Option.map_eq_bind]
  rfl

theorem readTranslated_jsonChar (c : Char) (rest : List Char) :
    readTranslated (jsonChar c ++ rest) = (readTranslated rest).map (before c) := by
  obtain ⟨left, translates, reads⟩ := translate?_jsonChar c
  rw [readTranslated, translates, Option.bind_map, readTranslated, Option.map_bind]
  exact congrArg _ (funext reads)

theorem readTranslated_jsonChars (text rest : List Char) :
    readTranslated (text.flatMap jsonChar ++ '"' :: rest) =
      (translate? rest).map fun rest => (text, rest) := by
  induction text with
  | nil => exact readTranslated_quote rest
  | cons c later ih =>
    rw [List.flatMap_cons, List.append_assoc, readTranslated_jsonChar, ih, Option.map_map]
    rfl

theorem prepared?_direct {language : Language} (direct : language ≠ .java) (source : List Char) :
    prepared? language source = some source := by
  cases language with
  | java => exact absurd rfl direct
  | rust => rfl
  | go => rfl
  | typescript => rfl

theorem readLiteral?_direct {language : Language} (direct : language ≠ .java) (text : String)
    (rest : List Char) :
    readLiteral? language ((literal language text).toList ++ rest) = some (text, rest) := by
  rw [toList_literal_append, readLiteral?, prepared?_direct direct, Option.bind_some,
    escapedQuoted?_flatMap (readEscaped_literalChar direct)]

theorem readLiteral?_java (text : String) (rest : List Char) :
    readLiteral? .java ((literal .java text).toList ++ rest) =
      (translate? rest).map fun rest => (text, rest) := by
  rw [toList_literal_append]
  calc readLiteral? .java ('"' :: (text.toList.flatMap jsonChar ++ '"' :: rest))
      = (readTranslated (text.toList.flatMap jsonChar ++ '"' :: rest)).map fun (text, rest) =>
          (String.ofList text, rest) := by
        rw [readLiteral?, prepared?, translate?_cons (by decide), Option.bind_map,
          readTranslated, Option.map_bind]
        rfl
    _ = (translate? rest).map fun rest => (text, rest) := by
        rw [readTranslated_jsonChars, Option.map_map]
        simp only [Function.comp_def, String.ofList_toList]

/-- A literal is read back in front of anything, so it ends at its closing quote. -/
theorem readLiteral?_literal (language : Language) (text : String) (rest : List Char) :
    readLiteral? language ((literal language text).toList ++ rest) =
      (prepared? language rest).map fun rest => (text, rest) := by
  by_cases java : language = .java
  · subst java
    exact readLiteral?_java text rest
  · rw [readLiteral?_direct java, prepared?_direct java, Option.map_some]

end ReadingBack

/-- What a literal promises: it is read as its text, whatever follows, its quotes are the only ones
without a backslash before them, and it is on one line. -/
structure Denotes (language : Language) (written : String) (text : String) : Prop where
  read : ∀ rest, readLiteral? language (written.toList ++ rest) =
    (prepared? language rest).map fun rest => (text, rest)
  closed : ∃ inside, written.toList = '"' :: inside ++ ['"'] ∧ Inside inside
  oneLine : '\n' ∉ written.toList ∧ '\r' ∉ written.toList

theorem inside_literalChar (language : Language) (c : Char) :
    Inside (literalChar language c) := by
  cases language with
  | rust => exact (asciiWritten_asciiChar c).inside
  | java => exact (jsonWritten_jsonChar c).inside
  | go => exact (jsonWritten_jsonChar c).inside
  | typescript => exact (jsonWritten_jsonChar c).inside

theorem visible_literalChar (language : Language) (c : Char) :
    Visible (literalChar language c) := by
  cases language with
  | rust => exact (asciiWritten_asciiChar c).visible
  | java => exact (jsonWritten_jsonChar c).visible
  | go => exact (jsonWritten_jsonChar c).visible
  | typescript => exact (jsonWritten_jsonChar c).visible

theorem visible_literal (language : Language) (text : String) :
    Visible (literal language text).toList := by
  have inside : Visible (text.toList.flatMap (literalChar language)) :=
    List.forall_mem_flatMap.2 fun c _ => visible_literalChar language c
  have quote : 0x20 ≤ '"'.toNat := by decide
  rw [toList_literal]
  exact List.forall_mem_append.2
    ⟨List.forall_mem_cons.2 ⟨quote, inside⟩, List.forall_mem_singleton.2 quote⟩

/-- Every text has a literal in each language that is read as this text, and no other text has the
same one. -/
theorem literal_denotes (language : Language) :
    (∀ text, Denotes language (literal language text) text) ∧
      Function.Injective (literal language) := by
  have nothing : prepared? language [] = some [] := by cases language <;> rfl
  refine ⟨fun text => ?_, fun text other same => ?_⟩
  · have visible := visible_literal language text
    exact {
      read := readLiteral?_literal language text
      closed := ⟨_, toList_literal language text, inside_flatMap (inside_literalChar language) _⟩
      oneLine := ⟨fun mem => absurd (visible _ mem) (by decide),
        fun mem => absurd (visible _ mem) (by decide)⟩ }
  · have first := readLiteral?_literal language text []
    have second := readLiteral?_literal language other []
    rw [nothing, Option.map_some] at first second
    rw [same, second] at first
    exact (congrArg Prod.fst (Option.some.inj first)).symm

/-- A backslash before `u` in the text itself starts no escape. -/
example : readLiteral? .java (literal .java "\\u0041").toList = some ("\\u0041", []) := by decide

end SchemaBindings.Text

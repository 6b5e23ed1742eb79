import SchemaBindings.Json.Text
import SchemaBindings.Text.Literal

/-! The ways in which a literal holds a character. -/

namespace SchemaBindings.Text

theorem forall_mem_hex {P : Char → Prop} (digit : ∀ d < 16, P d.digitChar) (n : Nat) :
    ∀ c ∈ hex n, P c := by
  induction n using Nat.strongRecOn with
  | ind n ih =>
    rw [hex, Nat.toDigits_eq_if (by decide)]
    split
    · exact List.forall_mem_singleton.2 (digit n (by omega))
    · refine List.forall_mem_append.2 ⟨ih (n / 16) (by omega), ?_⟩
      exact List.forall_mem_singleton.2 (digit (n % 16) (by omega))

section Json

/-- How a JSON string holds a character: behind a backslash, by its number, or as it is. -/
inductive JsonWritten (c : Char) : List Char → Prop
  | short {e : Char} (listed : e ∈ "\"\\bfnrt".toList) (means : Json.shortEscape? e = some c) :
    JsonWritten c ['\\', e]
  | unit (control : c.toNat < 0x20) (feed : c ≠ '\n') (back : c ≠ '\r') :
    JsonWritten c
      ['\\', 'u', '0', '0', (c.toNat / 16).digitChar, (c.toNat % 16).digitChar]
  | plain (visible : 0x20 ≤ c.toNat) (quote : c ≠ '"') (backslash : c ≠ '\\') : JsonWritten c [c]

theorem ne_u_of_shortEscape? {e c : Char} (means : Json.shortEscape? e = some c) : e ≠ 'u' := by
  rintro rfl
  cases means

theorem jsonWritten_jsonChar (c : Char) : JsonWritten c (jsonChar c) := by
  unfold jsonChar
  split
  case h_8 quote backslash _ _ feed back _ =>
    have two : ∀ n < 0x20, (if n < 0x10 then ['\\', 'u', '0', '0', '0'] ++ hex n
        else ['\\', 'u', '0', '0'] ++ hex n) =
          ['\\', 'u', '0', '0', (n / 16).digitChar, (n % 16).digitChar] := by decide
    by_cases control : c.toNat < 0x20
    · simp only [control, if_true, two c.toNat control]
      exact .unit control feed back
    · rw [if_neg (by omega), if_neg control]
      exact .plain (by omega) quote backslash
  all_goals exact .short (by decide) rfl

theorem codeUnit?_control : ∀ n < 0x20,
    Json.codeUnit? '0' '0' (n / 16).digitChar (n % 16).digitChar = some n := by decide

end Json

section Ascii

/-- What a backslash and one more character stand for in an ASCII literal. -/
def asciiEscape? : Char → Option Char
  | 't' => some '\t'
  | 'r' => some '\r'
  | 'n' => some '\n'
  | '0' => some '\x00'
  | '\'' => some '\''
  | '"' => some '"'
  | '\\' => some '\\'
  | _ => none

theorem ne_u_of_asciiEscape? {e c : Char} (means : asciiEscape? e = some c) : e ≠ 'u' := by
  rintro rfl
  cases means

/-- How an ASCII literal holds a character. -/
inductive AsciiWritten (c : Char) : List Char → Prop
  | short {e : Char} (listed : e ∈ "trn'\"\\".toList) (means : asciiEscape? e = some c) :
    AsciiWritten c ['\\', e]
  | plain (visible : 0x20 ≤ c.toNat) (quote : c ≠ '"') (backslash : c ≠ '\\') : AsciiWritten c [c]
  | number : AsciiWritten c (numbered c)

theorem asciiWritten_asciiChar (c : Char) : AsciiWritten c (asciiChar c) := by
  unfold asciiChar
  split
  case h_7 quote backslash =>
    split
    · rename_i shown
      exact .plain shown.1 quote backslash
    · exact .number
  all_goals exact .short (by decide) rfl

end Ascii

section Visible

/-- No control character is among these. -/
def Visible (text : List Char) : Prop := ∀ d ∈ text, 0x20 ≤ d.toNat

instance (text : List Char) : Decidable (Visible text) :=
  List.decidableBAll (fun d : Char => 0x20 ≤ d.toNat) text

theorem Visible.not_mem {text : List Char} (visible : Visible text) {c : Char}
    (control : c.toNat < 0x20) : c ∉ text :=
  fun member => Nat.not_le_of_lt control (visible c member)

theorem visible_around {before text after : String}
    (around : Visible before.toList ∧ Visible after.toList) (visible : Visible text.toList) :
    Visible (before ++ text ++ after).toList := by
  rw [String.toList_append, String.toList_append]
  exact List.forall_mem_append.2 ⟨List.forall_mem_append.2 ⟨around.1, visible⟩, around.2⟩

theorem not_mem_around {c : Char} (control : c.toNat < 0x20) {before text after : String}
    (around : Visible before.toList ∧ Visible after.toList) (missing : c ∉ text.toList) :
    c ∉ (before ++ text ++ after).toList := by
  rw [String.toList_append, String.toList_append]
  simp only [List.mem_append, not_or]
  exact ⟨⟨around.1.not_mem control, missing⟩, around.2.not_mem control⟩

theorem visible_hex (n : Nat) : Visible (hex n) := forall_mem_hex (by decide) n

theorem JsonWritten.visible {c : Char} {text : List Char} (written : JsonWritten c text) :
    Visible text := by
  cases written with
  | @short e listed _ =>
    have shown : Visible "\"\\bfnrt".toList := by decide
    exact List.forall_mem_cons.2 ⟨by decide, List.forall_mem_singleton.2 (shown e listed)⟩
  | unit control _ _ =>
    have shown : ∀ n < 0x20,
        Visible ['\\', 'u', '0', '0', (n / 16).digitChar, (n % 16).digitChar] := by decide
    exact shown c.toNat control
  | plain visible _ _ => exact List.forall_mem_singleton.2 visible

theorem AsciiWritten.visible {c : Char} {text : List Char} (written : AsciiWritten c text) :
    Visible text := by
  cases written with
  | @short e listed _ =>
    have shown : Visible "trn'\"\\".toList := by decide
    exact List.forall_mem_cons.2 ⟨by decide, List.forall_mem_singleton.2 (shown e listed)⟩
  | plain visible _ _ => exact List.forall_mem_singleton.2 visible
  | number =>
    have start : Visible ['\\', 'u', '\x7b'] := by decide
    have close : Visible ['\x7d'] := by decide
    exact List.forall_mem_append.2
      ⟨List.forall_mem_append.2 ⟨start, visible_hex c.toNat⟩, close⟩

/-- No control character stands in a JSON string as it is. -/
theorem visible_jsonString (text : String) : Visible (jsonString text).toList := by
  have inside : Visible (text.toList.flatMap jsonChar) :=
    List.forall_mem_flatMap.2 fun c _ => (jsonWritten_jsonChar c).visible
  have quote : Visible ['"'] := by decide
  rw [jsonString, String.toList_ofList]
  exact List.forall_mem_append.2 ⟨List.forall_mem_append.2 ⟨quote, inside⟩, quote⟩

/-- No control character stands in an ASCII literal as it is. -/
theorem visible_asciiEscaped (text : String) : Visible (asciiEscaped text).toList := by
  rw [asciiEscaped, String.toList_ofList]
  exact List.forall_mem_flatMap.2 fun c _ => (asciiWritten_asciiChar c).visible

end Visible

end SchemaBindings.Text

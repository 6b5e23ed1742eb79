import SchemaBindings.Json.Text
import SchemaBindings.Proofs.Text.Adjacent

/-! Unicode escapes as Java translates them everywhere in a source text, before anything else is read:
a backslash with an even number of backslashes right before it starts an escape when `u` follows. The
escape goes on with any number of `u` and must end with four hexadecimal digits. -/

namespace SchemaBindings.Text

open Json (hexDigit?)

/-- Where a translation stands. Of backslashes in a row every second one is passed over together with
the one before, so `started` is reached at those that may start an escape. -/
inductive Translation
  | outside
  /-- Behind a backslash that starts an escape if `u` follows. -/
  | started
  /-- Behind the backslash and at least one `u`. -/
  | marked
  /-- Behind so many digits, which write this number. -/
  | digits (count value : Nat)
  deriving DecidableEq, Repr

/-- The character of a code unit. Half a surrogate pair, which is no character, shows as U+FFFD. -/
def unitChar (unit : Nat) : Char := if unit.isValidChar then Char.ofNat unit else '\uFFFD'

theorem unitChar_toNat (c : Char) : unitChar c.toNat = c := by
  have valid : c.toNat.isValidChar := c.valid
  rw [unitChar, if_pos valid, Char.ofNat_toNat]

/-- What a text is translated to; `none` if an escape in it is ill-formed. -/
def translateFrom : Translation → List Char → Option (List Char)
  | .outside, [] => some []
  | .started, [] => some ['\\']
  | _, [] => none
  | .outside, c :: rest =>
    if c = '\\' then translateFrom .started rest else (translateFrom .outside rest).map (c :: ·)
  | .started, c :: rest =>
    if c = 'u' then translateFrom .marked rest
    else (translateFrom .outside rest).map ('\\' :: c :: ·)
  | .marked, c :: rest =>
    if c = 'u' then translateFrom .marked rest
    else (hexDigit? c).bind fun d => translateFrom (.digits 1 d) rest
  | .digits count n, c :: rest =>
    (hexDigit? c).bind fun d =>
      if count = 3 then (translateFrom .outside rest).map (unitChar (16 * n + d) :: ·)
      else translateFrom (.digits (count + 1) (16 * n + d)) rest

def translate? (text : List Char) : Option (List Char) := translateFrom .outside text

theorem translate?_cons {c : Char} (plain : c ≠ '\\') (rest : List Char) :
    translate? (c :: rest) = (translate? rest).map (c :: ·) := by
  rw [translate?, translateFrom, if_neg plain, translate?]

theorem translate?_append {start : List Char} (plain : '\\' ∉ start) (rest : List Char) :
    translate? (start ++ rest) = (translate? rest).map (start ++ ·) := by
  induction start with
  | nil => simp
  | cons c start ih =>
    have first : c ≠ '\\' := Ne.symm (List.ne_of_not_mem_cons plain)
    rw [List.cons_append, translate?_cons first, ih (List.not_mem_of_not_mem_cons plain),
      Option.map_map]
    rfl

theorem translate?_backslash {c : Char} (other : c ≠ 'u') (rest : List Char) :
    translate? ('\\' :: c :: rest) = (translate? rest).map ('\\' :: c :: ·) := by
  rw [translate?, translateFrom, if_pos rfl, translateFrom, if_neg other, translate?]

theorem translate?_unit {a b c d : Char} {unit : Nat}
    (value : Json.codeUnit? a b c d = some unit) (rest : List Char) :
    translate? ('\\' :: 'u' :: a :: b :: c :: d :: rest) =
      (translate? rest).map (unitChar unit :: ·) := by
  simp only [Json.codeUnit?, Option.bind_eq_bind, Option.bind_eq_some_iff, Option.pure_def,
    Option.some.injEq] at value
  obtain ⟨k, first, l, second, m, third, n, fourth, rfl⟩ := value
  have marked : a ≠ 'u' := by
    rintro rfl
    cases first
  have sum : 16 * (16 * (16 * k + l) + m) + n = ((k * 16 + l) * 16 + m) * 16 + n := by omega
  simp [translate?, translateFrom, marked, first, second, third, fourth, sum]

/-- Without a backslash before a `u` there is nothing to translate. -/
theorem translate?_of_apart {text : List Char} (apart : Apart '\\' 'u' text) :
    translate? text = some text := by
  -- A text behind a backslash goes on with something other than `u`.
  suffices translateFrom .outside text = some text ∧
      (text.head? ≠ some 'u' → translateFrom .started text = some ('\\' :: text)) from this.1
  induction text with
  | nil => exact ⟨rfl, fun _ => rfl⟩
  | cons c rest ih =>
    obtain ⟨later, started⟩ := ih (apart.of_isInfix (List.suffix_cons c rest).isInfix)
    constructor
    · rw [translateFrom]
      split
      · rename_i backslash
        subst backslash
        refine started fun marks => apart ?_
        obtain ⟨others, rfl⟩ := List.head?_eq_some_iff.1 marks
        exact ⟨[], others, rfl⟩
      · rw [later, Option.map_some]
    · intro other
      rw [translateFrom, if_neg (by simpa using other), later, Option.map_some]

/-- No escape goes over a line feed, so lines are translated apart. -/
theorem translateFrom_append_feed (state : Translation) (line rest : List Char) :
    translateFrom state (line ++ '\n' :: rest) =
      (translateFrom state line).bind fun first =>
        (translate? rest).map fun later => first ++ '\n' :: later := by
  induction line generalizing state with
  | nil =>
    cases state with
    | outside => simp [translateFrom, translate?]
    | started => simp [translateFrom, translate?]
    | marked => rfl
    | digits count n => rfl
  | cons c line ih =>
    cases state with
    | outside =>
      simp only [List.cons_append, translateFrom, ih]
      split
      · rfl
      · cases translateFrom .outside line <;> simp [Function.comp_def]
    | started =>
      simp only [List.cons_append, translateFrom, ih]
      split
      · rfl
      · cases translateFrom .outside line <;> simp [Function.comp_def]
    | marked =>
      simp only [List.cons_append, translateFrom, ih]
      split
      · rfl
      · rw [Option.bind_assoc]
    | digits count n =>
      simp only [List.cons_append, translateFrom, ih, Option.bind_assoc]
      refine congrArg _ (funext fun d => ?_)
      split
      · cases translateFrom .outside line <;> simp [Function.comp_def]
      · rfl

/-- What a line is translated to, if its escapes are well formed. -/
def translated (line : String) : String := String.ofList ((translate? line.toList).getD [])

/-- The escapes of a line are well formed. -/
def Translates (line : String) : Prop :=
  translate? line.toList = some (translated line).toList

instance (line : String) : Decidable (Translates line) := inferInstanceAs (Decidable (_ = _))

theorem translates_iff {line : String} : Translates line ↔ ∃ text, translate? line.toList = some text := by
  constructor
  · exact fun translates => ⟨_, translates⟩
  · rintro ⟨text, same⟩
    rw [Translates, translated, same, String.toList_ofList, Option.getD_some]

theorem translates_of_apart {line : String} (apart : Apart '\\' 'u' line.toList) :
    Translates line ∧ translated line = line := by
  have same := translate?_of_apart apart
  refine ⟨translates_iff.2 ⟨_, same⟩, ?_⟩
  rw [translated, same, Option.getD_some, String.ofList_toList]

/-- A text is translated line by line. -/
theorem translate?_unlines {lines : List String} {text : List Char} :
    translate? (unlines lines).toList = some text ↔
      (∀ line ∈ lines, Translates line) ∧ text = (unlines (lines.map translated)).toList := by
  induction lines generalizing text with
  | nil =>
    have empty : translate? (unlines []).toList = some (unlines []).toList := rfl
    rw [empty, Option.some.injEq, eq_comm]
    simp
  | cons line rest ih =>
    rw [toList_unlines_cons, translate?, translateFrom_append_feed, Option.bind_eq_some_iff,
      List.forall_mem_cons, List.map_cons, toList_unlines_cons]
    constructor
    · rintro ⟨first, alone, both⟩
      obtain ⟨later, others, rfl⟩ := Option.map_eq_some_iff.1 both
      obtain ⟨each, rfl⟩ := ih.1 others
      have translates : Translates line := translates_iff.2 ⟨first, alone⟩
      obtain rfl : first = (translated line).toList := Option.some.inj (alone.symm.trans translates)
      exact ⟨⟨translates, each⟩, rfl⟩
    · rintro ⟨⟨translates, each⟩, rfl⟩
      exact ⟨_, translates, Option.map_eq_some_iff.2 ⟨_, ih.2 ⟨each, rfl⟩, rfl⟩⟩

end SchemaBindings.Text

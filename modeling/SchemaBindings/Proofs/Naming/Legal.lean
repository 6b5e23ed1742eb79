import SchemaBindings.Binding.Target
import SchemaBindings.Proofs.Naming.Capital
import SchemaBindings.Proofs.Text.Lines

/-! Every name is an identifier of its language, whatever characters the raw names have: a letter,
then letters, digits and underscores, and no keyword. -/

namespace SchemaBindings.Naming

open Text (extend splitAtEach)

/-- A letter, then letters, digits and underscores, all of them in ASCII. -/
def IsIdentifier (name : String) : Prop :=
  ∃ c rest, name.toList = c :: rest ∧ c.isAlpha = true ∧
    ∀ d ∈ rest, d.isAlphanum = true ∨ d = '_'

theorem isIdentifier_iff (name : String) : IsIdentifier name ↔
    (name.toList.head?.any Char.isAlpha &&
      name.toList.tail.all fun d => d.isAlphanum || d == '_') = true := by
  cases text : name.toList with
  | nil => simp [IsIdentifier, text]
  | cons c rest => simp [IsIdentifier, text]

instance (name : String) : Decidable (IsIdentifier name) :=
  decidable_of_iff _ (isIdentifier_iff name).symm

/-- A text of letters and digits, all of them in ASCII. -/
def Plain (word : String) : Prop := ∀ c ∈ word.toList, c.isAlphanum = true

instance (word : String) : Decidable (Plain word) :=
  decidable_of_iff (word.toList.all Char.isAlphanum = true) List.all_eq_true

section Characters

/-- What holds of all codes of ASCII that are letters or digits holds of every letter and digit. -/
theorem of_isAlphanum {P : Char → Prop}
    (all : ∀ code < 128, (Char.ofNat code).isAlphanum = true → P (Char.ofNat code)) {c : Char}
    (alphanum : c.isAlphanum = true) : P c :=
  Unicode.of_ascii (P := fun c => c.isAlphanum = true → P c) all
    (Unicode.ascii_of_isAlphanum alphanum) alphanum

theorem isAlphanum_map {c : Char} (alphanum : c.isAlphanum = true) :
    c.toLower.isAlphanum = true ∧ c.toUpper.isAlphanum = true :=
  of_isAlphanum (P := fun c => c.toLower.isAlphanum = true ∧ c.toUpper.isAlphanum = true)
    (by decide) alphanum

theorem isAlphanum_of_mem_toLower {c : Char} (alphanum : c.isAlphanum = true) :
    ∀ d ∈ Unicode.toLower c, d.isAlphanum = true := by
  rw [Unicode.toLower_ascii (Unicode.ascii_of_isAlphanum alphanum)]
  exact List.forall_mem_singleton.2 (isAlphanum_map alphanum).1

theorem isAlphanum_of_mem_toUpper {c : Char} (alphanum : c.isAlphanum = true) :
    ∀ d ∈ Unicode.toUpper c, d.isAlphanum = true := by
  rw [Unicode.toUpper_ascii (Unicode.ascii_of_isAlphanum alphanum)]
  exact List.forall_mem_singleton.2 (isAlphanum_map alphanum).2

theorem mem_splitAtEach {α : Type} {isSeparator : α → Bool} {text part : List α} {a : α}
    (piece : part ∈ splitAtEach isSeparator text) (member : a ∈ part) : a ∈ text := by
  have inside : a ∈ (splitAtEach isSeparator text).flatten := List.mem_flatten.2 ⟨_, piece, member⟩
  rw [Text.flatten_splitAtEach] at inside
  exact List.mem_of_mem_filter inside

theorem mem_of_mem_rawWords {text word : List Char} {c : Char} (raw : word ∈ rawWords text)
    (member : c ∈ word) : c ∈ text := by
  obtain ⟨piece, cut, hump⟩ := List.mem_flatMap.1 raw
  have inside : c ∈ (humps none piece).flatten := List.mem_flatten.2 ⟨_, hump, member⟩
  rw [flatten_humps] at inside
  exact mem_splitAtEach cut inside

theorem isAlphanum_of_mem_lowerWord {word : List Char} (plain : ∀ c ∈ word, c.isAlphanum = true) :
    ∀ d ∈ lowerWord word, d.isAlphanum = true := by
  fun_induction lowerWord word with
  | case1 => exact plain
  | case2 => exact absurd (plain 'Σ' List.mem_cons_self) (by decide)
  | case3 c rest _ ih =>
    obtain ⟨first, later⟩ := List.forall_mem_cons.1 plain
    intro d member
    rcases List.mem_append.1 member with here | there
    · exact isAlphanum_of_mem_toLower first d here
    · exact ih later d there

theorem isAlphanum_of_mem_titleWord {word : List Char} (plain : ∀ c ∈ word, c.isAlphanum = true) :
    ∀ d ∈ titleWord word, d.isAlphanum = true := by
  cases word with
  | nil => exact plain
  | cons c rest =>
    obtain ⟨first, later⟩ := List.forall_mem_cons.1 plain
    intro d member
    rcases List.mem_append.1 member with here | there
    · exact isAlphanum_of_mem_toUpper first d here
    · exact isAlphanum_of_mem_lowerWord later d there

end Characters

theorem isAlphanum_of_mem_repr {k : Nat} {d : Char} (member : d ∈ k.repr.toList) :
    d.isAlphanum = true := by
  rw [Nat.repr_eq_ofList_toDigits, String.toList_ofList] at member
  simp [Char.isAlphanum, Nat.isDigit_of_mem_toDigits (by decide) (by decide) member]

section Words

variable {word : String}

theorem Plain.titleCase (plain : Plain word) : Plain (titleCase word) := by
  intro d member
  rw [Naming.titleCase, String.toList_ofList] at member
  obtain ⟨raw, cut, member⟩ := List.mem_flatMap.1 member
  exact isAlphanum_of_mem_titleWord (fun c held => plain c (mem_of_mem_rawWords cut held)) d member

theorem Plain.capitalize (plain : Plain word) (capitals : Capitals) (initialisms : List String) :
    Plain (capitalize capitals initialisms word) := by
  have lower : Plain (asciiLower word) := by
    intro d member
    obtain ⟨c, held, rfl⟩ := List.mem_map.1 (String.toList_map ▸ member)
    exact (isAlphanum_map (plain c held)).1
  have upper : Plain (asciiUpper word) := by
    intro d member
    obtain ⟨c, held, rfl⟩ := List.mem_map.1 (String.toList_map ▸ member)
    exact (isAlphanum_map (plain c held)).2
  cases capitals with
  | lower => exact lower
  | upper => exact upper
  | title =>
    simp only [Naming.capitalize]
    split
    · exact upper
    · exact plain.titleCase

theorem startsWithLetter_capitalize (letter : StartsWithLetter word) (capitals : Capitals)
    (initialisms : List String) : StartsWithLetter (capitalize capitals initialisms word) := by
  have isAlpha_of_isUpper {c : Char} (upper : c.isUpper = true) : c.isAlpha = true :=
    Bool.or_eq_true_iff.2 (.inl upper)
  cases capitals with
  | lower =>
    obtain ⟨c, cs, chars, letter⟩ := letter
    refine ⟨c.toLower, cs.map Char.toLower, by simp [capitalize, asciiLower, chars], ?_⟩
    exact of_isAlpha (P := fun c => c.toLower.isAlpha = true) (by decide) letter
  | upper =>
    obtain ⟨c, cs, chars, letter⟩ := letter
    obtain ⟨u, rest, same, upper⟩ := capital_asciiUpper chars letter
    exact ⟨u, rest, same, isAlpha_of_isUpper upper⟩
  | title =>
    obtain ⟨u, rest, same, upper⟩ := capital_capitalize_title initialisms letter
    exact ⟨u, rest, same, isAlpha_of_isUpper upper⟩

theorem plain_of_mem_splitWords {name : String} (member : word ∈ splitWords name) : Plain word := by
  simp only [splitWords, List.mem_map, List.mem_filter] at member
  obtain ⟨chars, ⟨⟨raw, -, rfl⟩, -⟩, rfl⟩ := member
  intro c held
  rw [String.toList_ofList] at held
  exact (List.mem_filter.1 held).2

theorem plain_of_mem_presentable {words : List String} (plain : ∀ word ∈ words, Plain word) :
    ∀ word ∈ presentable words, Plain word := by
  cases words with
  | nil =>
    have empty : Plain "empty" := by decide
    exact List.forall_mem_singleton.2 empty
  | cons first rest =>
    simp only [presentable]
    split
    · have marker : Plain "n" := by decide
      exact List.forall_mem_cons.2 ⟨marker, plain⟩
    · exact plain

end Words

/-- A style whose words have nothing between them but underscores. -/
def CaseStyle.Tight (style : CaseStyle) : Prop := ∀ c ∈ style.delimiter.toList, c = '_'

instance (style : CaseStyle) : Decidable style.Tight :=
  decidable_of_iff (style.delimiter.toList.all (· == '_') = true) (by simp [CaseStyle.Tight])

def EndsInLetter (word : String) : Prop := ∀ d ∈ word.toList.getLast?, d.isAlpha = true

instance (word : String) : Decidable (EndsInLetter word) :=
  decidable_of_iff (word.toList.getLast?.all Char.isAlpha = true) (by
    unfold EndsInLetter
    cases word.toList.getLast? <;> simp)

/-- A convention whose names are legal. As every keyword ends in a letter, neither an underscore nor
a number behind a name makes a keyword. -/
structure Convention.Regular (c : Convention) : Prop where
  types : c.typeCase.Tight
  members : c.memberCase.Tight
  constants : c.constantCase.Tight
  keywords : ∀ keyword ∈ c.keywords, EndsInLetter keyword

/-- What a language can take as a name. -/
structure Convention.Legal (c : Convention) (name : String) : Prop where
  identifier : IsIdentifier name
  unreserved : name ∉ c.keywords

section Identifiers

theorem IsIdentifier.append {name suffix : String} (identifier : IsIdentifier name)
    (fits : ∀ d ∈ suffix.toList, d.isAlphanum = true ∨ d = '_') :
    IsIdentifier (name ++ suffix) := by
  obtain ⟨c, rest, chars, letter, all⟩ := identifier
  refine ⟨c, rest ++ suffix.toList, by simp [chars], letter, fun d member => ?_⟩
  exact (List.mem_append.1 member).elim (all d) (fits d)

theorem IsIdentifier.not_mem {name : String} (identifier : IsIdentifier name) {c : Char}
    (other : ¬ (c.isAlphanum = true ∨ c = '_')) : c ∉ name.toList := by
  obtain ⟨first, rest, chars, letter, all⟩ := identifier
  rw [chars]
  intro member
  rcases List.mem_cons.1 member with rfl | member
  · exact other (.inl (by rw [Char.isAlphanum, letter, Bool.true_or]))
  · exact other (all c member)

theorem isIdentifier_apply {style : CaseStyle} (tight : style.Tight) (initialisms : List String)
    {words : List String} (plain : ∀ word ∈ words, Plain word)
    (letter : ∃ word rest, words = word :: rest ∧ StartsWithLetter word) :
    IsIdentifier (style.apply initialisms words) := by
  obtain ⟨word, rest, rfl, letter⟩ := letter
  obtain ⟨suffix, same⟩ := exists_apply style initialisms word rest
  obtain ⟨c, cs, chars, first⟩ := startsWithLetter_capitalize letter style.first initialisms
  have text : (style.apply initialisms (word :: rest)).toList = c :: (cs ++ suffix.toList) := by
    rw [same, String.toList_append, chars, List.cons_append]
  refine ⟨c, cs ++ suffix.toList, text, first, fun d member => ?_⟩
  have inside : d ∈ (style.apply initialisms (word :: rest)).toList :=
    text ▸ List.mem_cons_of_mem c member
  rcases Text.mem_intercalate inside with between | ⟨written, cased, held⟩
  · exact .inr (tight d between)
  · refine .inl ?_
    rcases List.mem_cons.1 cased with rfl | cased
    · exact (plain word List.mem_cons_self).capitalize style.first initialisms d held
    · obtain ⟨other, member, rfl⟩ := List.mem_map.1 cased
      exact (plain other (List.mem_cons_of_mem _ member)).capitalize style.rest initialisms d held

section Keywords

variable {c : Convention} (regular : c.Regular)

include regular

/-- The underscore behind a keyword is enough to set it apart. -/
theorem legal_identifier {style : CaseStyle} (tight : style.Tight) {words : List String}
    (split : ∀ word ∈ words, ∃ name, word ∈ splitWords name) :
    c.Legal (c.identifier style words) := by
  have plain : ∀ word ∈ words, Plain word := fun word member =>
    (split word member).elim fun _ => plain_of_mem_splitWords
  have alphanum : ∀ word ∈ words, ∃ c cs, word.toList = c :: cs ∧ c.isAlphanum = true :=
    fun word member => (split word member).elim fun _ => isAlphanum_of_mem_splitWords
  have identifier := isIdentifier_apply tight c.initialisms (plain_of_mem_presentable plain)
    (startsWithLetter_presentable alphanum)
  simp only [Convention.identifier]
  split
  · have underscore : ∀ d ∈ "_".toList, d = '_' := fun d => List.mem_singleton.1
    refine ⟨identifier.append fun d member => .inr (underscore d member), fun reserved => ?_⟩
    have letter := regular.keywords _ reserved '_' (by simp)
    exact absurd letter (by decide)
  · rename_i apart
    exact ⟨identifier, by simpa using apart⟩

/-- A number behind a name leaves it legal. -/
theorem legal_numbered (base : String) (k : Nat) (legal : c.Legal base) :
    c.Legal (Scope.numbered base k) := by
  refine ⟨legal.identifier.append fun d member => .inl (isAlphanum_of_mem_repr member),
    fun reserved => ?_⟩
  obtain ⟨d, last, digit⟩ := Scope.getLast?_numbered base k
  have letter := regular.keywords _ reserved d last
  exact of_isAlpha (P := fun c => ¬ c.isDigit = true) (by decide) letter digit

end Keywords

end Identifiers

/-- A property of all identifiers of a declaration. -/
structure Names.Each (P : String → Prop) (n : Names) : Prop where
  type : P n.type
  members : ∀ name ∈ n.members, P name
  constants : ∀ name ∈ n.constants, P name
  tagMember : ∀ name, n.tagMember = some name → P name

theorem Names.Each.imp {P Q : String → Prop} {n : Names} (each : n.Each P)
    (implies : ∀ name, P name → Q name) : n.Each Q where
  type := implies _ each.type
  members name member := implies name (each.members name member)
  constants name member := implies name (each.constants name member)
  tagMember name tagged := implies name (each.tagMember name tagged)

/-- What holds of every name that a convention gives, and stays when a number is put behind. -/
structure Convention.Ensures (c : Convention) (P : String → Prop) : Prop where
  type : ∀ path, P (c.typeName path)
  member : ∀ wireName, P (c.memberName wireName)
  constant : ∀ value, P (c.constantName value)
  global : ∀ type value, P (c.globalConstantName type value)
  numbered : ∀ base k, P base → P (Scope.numbered base k)

section Ensuring

variable {c : Convention} {P : String → Prop} (ensures : c.Ensures P) (catalog : Catalog)

include ensures

theorem Convention.Ensures.claimAll (scope : Scope) {bases : List String}
    (each : ∀ base ∈ bases, P base) : ∀ name ∈ (scope.claimAll bases).1, P name :=
  Scope.forall_claimAll ensures.numbered each

theorem Convention.Ensures.memberNames (scope : Scope) (members : List Member) :
    ∀ name ∈ memberNames c scope members, P name :=
  ensures.claimAll scope (List.forall_mem_map.2 fun m _ => ensures.member m.wireName)

theorem each_namesOf (types : Scope) {type : String} (typed : P type) (shape : Shape) :
    (namesOf c catalog types type shape).1.Each P := by
  have none : ∀ name ∈ ([] : List String), P name := List.forall_mem_nil P
  have untagged : ∀ name : String, Option.none = some name → P name := by
    intro name held
    cases held
  cases shape with
  | record members additional =>
    simp only [namesOf]
    exact ⟨typed, ensures.memberNames .empty members, none, untagged⟩
  | variant parent tagValue members additional =>
    cases known : (tag? catalog parent).map c.memberName with
    | none =>
      simp only [namesOf, known]
      exact ⟨typed, ensures.memberNames .empty members, none, untagged⟩
    | some tag =>
      obtain ⟨wireName, -, rfl⟩ := Option.map_eq_some_iff.1 known
      simp only [namesOf, known]
      refine ⟨typed, ensures.memberNames _ members, none, fun name held => ?_⟩
      exact Option.some.inj held ▸ ensures.member wireName
  | union tag variants =>
    have tagged := tagMember_namesOf_union c catalog types type tag variants
    simp only [namesOf] at tagged ⊢
    refine ⟨typed, ?_, ?_, fun name held => ?_⟩
    · exact ensures.claimAll _ (List.forall_mem_map.2 fun v _ => ensures.member v)
    · exact ensures.claimAll _ (List.forall_mem_map.2 fun v _ => ensures.constant v)
    · exact Option.some.inj (tagged.symm.trans held) ▸ ensures.member tag
  | enumeration values =>
    cases scope : c.constantScope with
    | perEnum =>
      simp only [namesOf, scope]
      refine ⟨typed, none, ?_, untagged⟩
      exact ensures.claimAll _ (List.forall_mem_map.2 fun v _ => ensures.constant v.value)
    | global =>
      simp only [namesOf, scope]
      refine ⟨typed, none, ?_, untagged⟩
      exact ensures.claimAll _ (List.forall_mem_map.2 fun v _ => ensures.global type v.value)
  | wrapper inner =>
    simp only [namesOf]
    exact ⟨typed, none, none, untagged⟩

theorem each_namesFrom {types : Scope} {entries : List (Declaration × String)}
    (typed : ∀ entry ∈ entries, P entry.2) :
    ∀ n ∈ namesFrom c catalog types entries, n.Each P := by
  induction entries generalizing types with
  | nil => exact List.forall_mem_nil _
  | cons entry rest ih =>
    obtain ⟨first, later⟩ := List.forall_mem_cons.1 typed
    exact List.forall_mem_cons.2 ⟨each_namesOf ensures catalog types first entry.1.shape, ih later⟩

theorem each_resolve : ∀ n ∈ resolve c catalog, n.Each P := by
  have types : ∀ type ∈ (typeNames c catalog).1, P type :=
    ensures.claimAll _ (List.forall_mem_map.2 fun d _ => ensures.type d.path)
  exact each_namesFrom ensures catalog fun entry member => types _ (List.of_mem_zip member).2

end Ensuring

theorem Convention.Regular.ensures {c : Convention} (regular : c.Regular) : c.Ensures c.Legal where
  type _ := legal_identifier regular regular.types fun _ member =>
    (List.mem_flatMap.1 member).imp fun _ held => held.2
  member wireName := legal_identifier regular regular.members fun _ member => ⟨wireName, member⟩
  constant value := legal_identifier regular regular.constants fun _ member => ⟨value, member⟩
  global type value := legal_identifier regular regular.types fun _ member =>
    (List.mem_append.1 member).elim (fun held => ⟨type, held⟩) (fun held => ⟨value, held⟩)
  numbered := legal_numbered regular

/-- A convention that writes everything in Pascal case gives capital names only. -/
theorem ensures_capital {c : Convention} (types : c.typeCase = .pascal)
    (members : c.memberCase = .pascal) (constants : c.constantCase = .pascal) :
    c.Ensures Capital where
  type := capital_typeName types
  member wireName := by
    rw [Convention.memberName, members]
    exact capital_identifier c fun _ => isAlphanum_of_mem_splitWords
  constant value := by
    rw [Convention.constantName, constants]
    exact capital_identifier c fun _ => isAlphanum_of_mem_splitWords
  global type value := by
    rw [Convention.globalConstantName, types]
    refine capital_identifier c fun _ member => ?_
    exact (List.mem_append.1 member).elim isAlphanum_of_mem_splitWords isAlphanum_of_mem_splitWords
  numbered _ k capital := capital.append k.repr

open Binding (naming)

theorem regular_naming (language : Language) : (naming language).Regular := by
  cases language <;> exact ⟨by decide, by decide, by decide, by decide +kernel⟩

/-- Whatever the raw names are, every name that a language is given is a legal identifier of it.
Every name that Go is given also starts with a capital letter, so that its fields are exported. -/
theorem legal_resolve (language : Language) (schema : Schema) (rootName : String) :
    (∀ n ∈ resolve (naming language) (Catalog.ofSchema schema rootName),
      n.Each (naming language).Legal) ∧
    ∀ n ∈ resolve (naming .go) (Catalog.ofSchema schema rootName), n.Each Capital :=
  ⟨each_resolve (regular_naming language).ensures _,
    each_resolve (ensures_capital rfl rfl rfl) _⟩

end SchemaBindings.Naming

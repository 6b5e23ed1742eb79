import SchemaBindings.Proofs.Json.Segments
import SchemaBindings.Proofs.Naming.Legal
import SchemaBindings.Proofs.Outcome

/-! Constants that live among the types start with the words of their type's name. The name is cut
into its humps for that, and these are written anew. So the letters of the name are always there, but
the name itself is there only when none of its humps is written in another way. -/

namespace SchemaBindings.Naming

open Text (extend splitAtEach)

/-- A hump as it is written in Pascal case. -/
def recased (initialisms : List String) (hump : List Char) : List Char :=
  if isInitialism initialisms (String.ofList hump) then hump.map Char.toUpper
  else (hump.take 1).map Char.toUpper ++ (hump.drop 1).map Char.toLower

/-- A hump that Pascal case leaves as it is: in an initialism there is no small letter, in any other
hump no capital behind the first letter. -/
def Settled (initialisms : List String) (hump : List Char) : Prop :=
  if isInitialism initialisms (String.ofList hump) then ∀ c ∈ hump, c.isLower = false
  else ∀ c ∈ hump.drop 1, c.isUpper = false

instance (initialisms : List String) (hump : List Char) : Decidable (Settled initialisms hump) :=
  decidable_of_iff ((if isInitialism initialisms (String.ofList hump) then hump.all (!·.isLower)
      else (hump.drop 1).all (!·.isUpper)) = true) (by
    unfold Settled
    split <;> simp)

section Characters

variable {c : Char} (alphanum : c.isAlphanum = true)

include alphanum

theorem isAlphanumeric_of_isAlphanum : Unicode.isAlphanumeric c = true :=
  (Unicode.isAlphanumeric_ascii (Unicode.ascii_of_isAlphanum alphanum)).trans alphanum

theorem toLower_of_isAlphanum : Unicode.toLower c = [c.toLower] :=
  Unicode.toLower_ascii (Unicode.ascii_of_isAlphanum alphanum)

theorem toUpper_of_isAlphanum : Unicode.toUpper c = [c.toUpper] :=
  Unicode.toUpper_ascii (Unicode.ascii_of_isAlphanum alphanum)

theorem isUpper_of_isUppercase (upper : Unicode.isUppercase c = true) : c.isUpper = true :=
  (Unicode.isUppercase_ascii (Unicode.ascii_of_isAlphanum alphanum)).symm.trans upper

theorem isUppercase_toLower : Unicode.isUppercase c.toLower = false := by
  rw [Unicode.isUppercase_ascii (Unicode.ascii_of_isAlphanum (isAlphanum_map alphanum).1)]
  exact of_isAlphanum (P := fun c => c.toLower.isUpper = false) (by decide) alphanum

theorem isLowercase_toUpper : Unicode.isLowercase c.toUpper = false := by
  rw [Unicode.isLowercase_ascii (Unicode.ascii_of_isAlphanum (isAlphanum_map alphanum).2)]
  exact of_isAlphanum (P := fun c => c.toUpper.isLower = false) (by decide) alphanum

/-- Changing the case of a letter twice leaves the second change. -/
theorem change_of_change : c.toLower.toLower = c.toLower ∧ c.toLower.toUpper = c.toUpper ∧
    c.toUpper.toLower = c.toLower :=
  of_isAlphanum (P := fun c => c.toLower.toLower = c.toLower ∧ c.toLower.toUpper = c.toUpper ∧
    c.toUpper.toLower = c.toLower) (by decide) alphanum

theorem toUpper_eq_self_iff : c.toUpper = c ↔ c.isLower = false :=
  of_isAlphanum (P := fun c => c.toUpper = c ↔ c.isLower = false) (by decide) alphanum

theorem toLower_eq_self_iff : c.toLower = c ↔ c.isUpper = false :=
  of_isAlphanum (P := fun c => c.toLower = c ↔ c.isUpper = false) (by decide) alphanum

end Characters

section Humps

variable {text : List Char} (plain : ∀ c ∈ text, c.isAlphanum = true)

theorem exists_capital_of_mem_tail_humps (before : Option LetterCase)
    (plain : ∀ c ∈ text, c.isAlphanum = true) :
    ∀ hump ∈ (humps before text).tail, ∃ c rest, hump = c :: rest ∧ c.isUpper = true := by
  fun_induction humps before text with
  | case1 => exact List.forall_mem_nil _
  | case2 => exact List.forall_mem_nil _
  | case3 before c next rest change ih =>
    obtain ⟨-, later⟩ := List.forall_mem_cons.1 plain
    obtain ⟨word, others, cut⟩ := exists_humps next rest
    have ih := ih later
    rw [cut] at ih
    rw [List.tail_cons, cut]
    exact List.forall_mem_cons.2 ⟨⟨next, word, rfl,
      isUpper_of_isUppercase (later next List.mem_cons_self) change.2⟩, ih⟩
  | case4 before c next rest _ change ih =>
    obtain ⟨first, later⟩ := List.forall_mem_cons.1 plain
    obtain ⟨word, others, cut⟩ := exists_humps next rest
    have ih := ih later
    rw [cut] at ih
    rw [List.tail_cons, cut]
    exact List.forall_mem_cons.2 ⟨⟨c, next :: word, rfl,
      isUpper_of_isUppercase first change.2.1⟩, ih⟩
  | case5 before c next rest _ _ ih =>
    have ih := ih (List.forall_mem_cons.1 plain).2
    cases cut : humps (caseAfter before c) (next :: rest) with
    | nil => exact List.forall_mem_nil _
    | cons word others =>
      rw [cut] at ih
      exact ih

/-- Without capitals there is no change of case to cut at. -/
theorem humps_of_uncapitalized (before : Option LetterCase) (nonempty : text ≠ [])
    (small : ∀ c ∈ text, Unicode.isUppercase c = false) : humps before text = [text] := by
  fun_induction humps before text with
  | case1 => exact (nonempty rfl).elim
  | case2 => rfl
  | case3 before c next rest change ih =>
    rw [small next (by simp)] at change
    exact absurd change.2 Bool.false_ne_true
  | case4 before c next rest _ change ih =>
    rw [small c (by simp)] at change
    exact absurd change.2.1 Bool.false_ne_true
  | case5 before c next rest _ _ ih =>
    rw [ih (by simp) (List.forall_mem_cons.1 small).2]
    rfl

include plain

theorem rawWords_of_plain : rawWords text = humps none text := by
  have whole : pieces text = [text] :=
    Text.splitAtEach_of_forall_not fun c member => by
      rw [isAlphanumeric_of_isAlphanum (plain c member), Bool.not_true]
  rw [rawWords, whole, List.flatMap_singleton]

theorem lowerWord_of_plain : lowerWord text = text.map Char.toLower := by
  fun_induction lowerWord text with
  | case1 => rfl
  | case2 => exact absurd (plain 'Σ' List.mem_cons_self) (by decide)
  | case3 c rest _ ih =>
    obtain ⟨first, later⟩ := List.forall_mem_cons.1 plain
    rw [toLower_of_isAlphanum first, ih later, List.map_cons, List.singleton_append]

theorem titleWord_of_plain :
    titleWord text = (text.take 1).map Char.toUpper ++ (text.drop 1).map Char.toLower := by
  cases text with
  | nil => rfl
  | cons c rest =>
    obtain ⟨first, later⟩ := List.forall_mem_cons.1 plain
    rw [titleWord, toUpper_of_isAlphanum first, lowerWord_of_plain later]
    rfl

end Humps

section Casing

theorem map_eq_self_iff {α : Type} {f : α → α} {l : List α} : l.map f = l ↔ ∀ a ∈ l, f a = a := by
  simpa using (List.map_inj_left (f := f) (g := id) (l := l))

variable (initialisms : List String) {hump : List Char}

theorem isInitialism_small (plain : ∀ c ∈ hump, c.isAlphanum = true) :
    isInitialism initialisms (String.ofList (hump.map Char.toLower)) =
      isInitialism initialisms (String.ofList hump) := by
  have same : asciiLower (String.ofList (hump.map Char.toLower)) =
      asciiLower (String.ofList hump) := by
    refine String.toList_inj.1 ?_
    rw [asciiLower, asciiLower, String.toList_map, String.toList_map, String.toList_ofList,
      String.toList_ofList, List.map_map]
    exact List.map_congr_left fun c member => (change_of_change (plain c member)).1
  rw [isInitialism, isInitialism, same]

/-- A word of a name is written as the hump is that it comes from. -/
theorem toList_capitalize_title (plain : ∀ c ∈ hump, c.isAlphanum = true) :
    (capitalize .title initialisms (String.ofList (hump.map Char.toLower))).toList =
      recased initialisms hump := by
  simp only [capitalize, recased, isInitialism_small initialisms plain]
  split
  · rw [asciiUpper, String.toList_map, String.toList_ofList, List.map_map]
    exact List.map_congr_left fun c member => (change_of_change (plain c member)).2.1
  · have small : ∀ c ∈ hump.map Char.toLower, c.isAlphanum = true :=
      List.forall_mem_map.2 fun c member => (isAlphanum_map (plain c member)).1
    rw [titleCase, String.toList_ofList, String.toList_ofList, rawWords_of_plain small]
    cases hump with
    | nil => rfl
    | cons c rest =>
      have uncapitalized : ∀ d ∈ (c :: rest).map Char.toLower, Unicode.isUppercase d = false :=
        List.forall_mem_map.2 fun d member => isUppercase_toLower (plain d member)
      rw [humps_of_uncapitalized none (by simp) uncapitalized, List.flatMap_singleton,
        titleWord_of_plain small, ← List.map_take, ← List.map_drop, List.map_map, List.map_map]
      congr 1
      · refine List.map_congr_left fun d member => ?_
        exact (change_of_change (plain d (List.mem_of_mem_take member))).2.1
      · refine List.map_congr_left fun d member => ?_
        exact (change_of_change (plain d (List.mem_of_mem_drop member))).1

theorem length_recased (hump : List Char) : (recased initialisms hump).length = hump.length := by
  rw [recased]
  split
  · exact List.length_map ..
  · rw [List.length_append, List.length_map, List.length_map, ← List.length_append,
      List.take_append_drop]

/-- Only the case of letters changes. -/
theorem map_toLower_recased (plain : ∀ c ∈ hump, c.isAlphanum = true) :
    (recased initialisms hump).map Char.toLower = hump.map Char.toLower := by
  have upper (part : List Char) (inside : ∀ c ∈ part, c ∈ hump) :
      (part.map Char.toUpper).map Char.toLower = part.map Char.toLower := by
    rw [List.map_map]
    exact List.map_congr_left fun c member => (change_of_change (plain c (inside c member))).2.2
  have lower (part : List Char) (inside : ∀ c ∈ part, c ∈ hump) :
      (part.map Char.toLower).map Char.toLower = part.map Char.toLower := by
    rw [List.map_map]
    exact List.map_congr_left fun c member => (change_of_change (plain c (inside c member))).1
  rw [recased]
  split
  · exact upper hump fun _ => id
  · rw [List.map_append, upper _ fun _ => List.mem_of_mem_take,
      lower _ fun _ => List.mem_of_mem_drop, ← List.map_append, List.take_append_drop]

/-- A hump that starts with a capital is left as it is just when it is settled. -/
theorem recased_eq_self_iff {c : Char} {rest : List Char} (upper : c.isUpper = true)
    (plain : ∀ d ∈ c :: rest, d.isAlphanum = true) :
    recased initialisms (c :: rest) = c :: rest ↔ Settled initialisms (c :: rest) := by
  rw [recased, Settled]
  split
  · rw [map_eq_self_iff]
    exact forall₂_congr fun d member => toUpper_eq_self_iff (plain d member)
  · obtain ⟨first, later⟩ := List.forall_mem_cons.1 plain
    have kept : c.toUpper = c :=
      of_isAlphanum (P := fun c => c.isUpper = true → c.toUpper = c) (by decide) first upper
    rw [List.take_succ_cons, List.take_zero, List.drop_succ_cons, List.drop_zero,
      List.map_singleton, kept, List.singleton_append, List.cons_inj_right, map_eq_self_iff]
    exact forall₂_congr fun d member => toLower_eq_self_iff (later d member)

end Casing

section Names

/-- Humps that are written in as many letters as before come out as the whole just when each of them
comes out as it was. -/
theorem flatMap_recased_eq_iff (initialisms : List String) (parts : List (List Char)) :
    parts.flatMap (recased initialisms) = parts.flatten ↔
      ∀ part ∈ parts, recased initialisms part = part := by
  induction parts with
  | nil => simp
  | cons part rest ih =>
    rw [List.flatMap_cons, List.flatten_cons, List.forall_mem_cons, ← ih]
    exact ⟨fun same => List.append_inj same (length_recased initialisms part),
      fun ⟨first, later⟩ => by rw [first, later]⟩

theorem length_flatMap_recased (initialisms : List String) (parts : List (List Char)) :
    (parts.flatMap (recased initialisms)).length = parts.flatten.length := by
  rw [List.length_flatMap, List.length_flatten]
  exact congrArg _ (List.map_congr_left fun part _ => length_recased initialisms part)

/-- When a name is cut into letters and digits alone, its words are what it is cut into, in small
letters. -/
theorem splitWords_of_rawWords {name : String} {raw : List (List Char)}
    (cut : rawWords name.toList = raw) (plain : ∀ word ∈ raw, ∀ c ∈ word, c.isAlphanum = true)
    (nonempty : ∀ word ∈ raw, word ≠ []) :
    splitWords name = raw.map fun word => String.ofList (word.map Char.toLower) := by
  have lowered : raw.map (fun word => (lowerWord word).filter Char.isAlphanum) =
      raw.map (List.map Char.toLower) := by
    refine List.map_congr_left fun word listed => ?_
    have own := plain word listed
    rw [lowerWord_of_plain own]
    exact List.filter_eq_self.2 (List.forall_mem_map.2 fun c member =>
      (isAlphanum_map (own c member)).1)
  have kept : ∀ word ∈ raw.map (List.map Char.toLower), (!word.isEmpty) = true :=
    List.forall_mem_map.2 fun word listed => by simpa using nonempty word listed
  rw [splitWords, cut, lowered, List.filter_eq_self.2 kept, List.map_map]
  rfl

variable {name : String} (plain : Plain name) (capital : Capital name)

include capital in
theorem exists_capital_of_mem_humps (plain : Plain name) :
    ∀ hump ∈ humps none name.toList, ∃ c rest, hump = c :: rest ∧ c.isUpper = true := by
  have tail := exists_capital_of_mem_tail_humps none plain
  obtain ⟨c, cs, chars, upper⟩ := capital
  obtain ⟨word, rest, cut⟩ := exists_humps c cs
  rw [chars, cut] at tail ⊢
  exact List.forall_mem_cons.2 ⟨⟨c, word, rfl, upper⟩, tail⟩

include plain

theorem plain_of_mem_humps : ∀ hump ∈ humps none name.toList, ∀ c ∈ hump, c.isAlphanum = true := by
  intro hump listed c member
  refine plain c ?_
  rw [← flatten_humps none name.toList]
  exact List.mem_flatten.2 ⟨hump, listed, member⟩

theorem map_toLower_flatMap_recased (initialisms : List String) :
    ((humps none name.toList).flatMap (recased initialisms)).map Char.toLower =
      name.toList.map Char.toLower := by
  conv_rhs => rw [← flatten_humps none name.toList, List.map_flatten]
  rw [List.map_flatMap, List.flatMap_def]
  refine congrArg _ (List.map_congr_left fun hump inside => ?_)
  exact map_toLower_recased _ (plain_of_mem_humps plain hump inside)

include capital

/-- A name comes out of its humps as it was just when all of them are settled. -/
theorem flatMap_recased_eq_self_iff (initialisms : List String) :
    (humps none name.toList).flatMap (recased initialisms) = name.toList ↔
      ∀ hump ∈ rawWords name.toList, Settled initialisms hump := by
  have each := flatMap_recased_eq_iff initialisms (humps none name.toList)
  rw [flatten_humps] at each
  rw [each, rawWords_of_plain plain]
  refine forall₂_congr fun hump listed => ?_
  have own := plain_of_mem_humps plain hump listed
  obtain ⟨c, rest, rfl, upper⟩ := exists_capital_of_mem_humps capital plain hump listed
  exact recased_eq_self_iff initialisms upper own

theorem splitWords_of_plain : splitWords name =
    (humps none name.toList).map fun hump => String.ofList (hump.map Char.toLower) := by
  refine splitWords_of_rawWords (rawWords_of_plain plain) (plain_of_mem_humps plain)
    fun hump listed => ?_
  obtain ⟨c, rest, rfl, -⟩ := exists_capital_of_mem_humps capital plain hump listed
  exact List.cons_ne_nil c rest

end Names

section Conventions

variable {c : Convention}

theorem toList_apply_pascal (initialisms words : List String) :
    (CaseStyle.pascal.apply initialisms words).toList =
      words.flatMap fun word => (capitalize .title initialisms word).toList := by
  have joined (texts : List String) :
      (String.intercalate "" texts).toList = texts.flatMap String.toList := by
    induction texts with
    | nil => rfl
    | cons text rest ih =>
      cases rest with
      | nil => simp
      | cons next rest =>
        rw [String.intercalate_cons_cons, String.toList_append, String.toList_append, ih]
        simp
  have cased : CaseStyle.pascal.cased initialisms words =
      words.map (capitalize .title initialisms) := by
    cases words <;> rfl
  rw [CaseStyle.apply, cased]
  exact (joined _).trans (List.flatMap_map ..)

/-- Names in Pascal case are letters and digits, with a capital first, when no keyword has one. -/
theorem plain_identifier (small : ∀ keyword ∈ c.keywords, ¬ Capital keyword) {words : List String}
    (split : ∀ word ∈ words, ∃ name, word ∈ splitWords name) :
    Plain (c.identifier .pascal words) ∧ Capital (c.identifier .pascal words) := by
  have plain : ∀ word ∈ presentable words, Plain word :=
    plain_of_mem_presentable fun word member =>
      (split word member).elim fun _ => plain_of_mem_splitWords
  have alphanum : ∀ word ∈ words, ∃ c cs, word.toList = c :: cs ∧ c.isAlphanum = true :=
    fun word member => (split word member).elim fun _ => isAlphanum_of_mem_splitWords
  refine ⟨?_, capital_identifier c alphanum⟩
  have apart : ¬ c.keywords.contains (CaseStyle.pascal.apply c.initialisms (presentable words)) :=
    fun reserved => small _ (List.contains_iff_mem.1 reserved) (capital_apply _ alphanum)
  intro d member
  rw [Convention.identifier, if_neg apart, toList_apply_pascal] at member
  obtain ⟨word, listed, member⟩ := List.mem_flatMap.1 member
  exact (plain word listed).capitalize .title c.initialisms d member

theorem ensures_plain (types : c.typeCase = .pascal) (members : c.memberCase = .pascal)
    (constants : c.constantCase = .pascal) (small : ∀ keyword ∈ c.keywords, ¬ Capital keyword) :
    c.Ensures fun name => Plain name ∧ Capital name where
  type path := by
    rw [Convention.typeName, types]
    exact plain_identifier small fun _ member =>
      (List.mem_flatMap.1 member).imp fun _ held => held.2
  member wireName := by
    rw [Convention.memberName, members]
    exact plain_identifier small fun _ member => ⟨wireName, member⟩
  constant value := by
    rw [Convention.constantName, constants]
    exact plain_identifier small fun _ member => ⟨value, member⟩
  global type value := by
    rw [Convention.globalConstantName, types]
    exact plain_identifier small fun _ member =>
      (List.mem_append.1 member).elim (fun held => ⟨type, held⟩) (fun held => ⟨value, held⟩)
  numbered base k legal := by
    refine ⟨fun d member => ?_, legal.2.append k.repr⟩
    rw [Scope.numbered, String.toList_append, List.mem_append] at member
    exact member.elim (legal.1 d) isAlphanum_of_mem_repr

/-- A constant that lives among the types starts with the humps of the type's name, written anew. -/
theorem isPrefix_globalConstantName (pascal : c.typeCase = .pascal) {type : String}
    (plain : Plain type) (capital : Capital type) (value : String) :
    (humps none type.toList).flatMap (recased c.initialisms) <+:
      (c.globalConstantName type value).toList := by
  have written : (humps none type.toList).flatMap (recased c.initialisms) =
      (splitWords type).flatMap fun word => (capitalize .title c.initialisms word).toList := by
    rw [splitWords_of_plain plain capital, List.flatMap_map]
    refine List.flatMap_congr fun hump listed => ?_
    exact (toList_capitalize_title c.initialisms (plain_of_mem_humps plain hump listed)).symm
  have present : presentable (splitWords type ++ splitWords value) =
      splitWords type ++ splitWords value := by
    obtain ⟨c, cs, chars, upper⟩ := id capital
    obtain ⟨word, rest, cut⟩ := exists_humps c cs
    have letter : c.toLower.isDigit = false :=
      of_isAlpha (P := fun c => c.toLower.isDigit = false) (by decide)
        (Bool.or_eq_true_iff.2 (.inl upper))
    rw [splitWords_of_plain plain capital, chars, cut, List.map_cons, List.cons_append, presentable,
      if_neg (by simp [startsWithDigit, letter])]
  have applied : (humps none type.toList).flatMap (recased c.initialisms) <+:
      (CaseStyle.pascal.apply c.initialisms
        (presentable (splitWords type ++ splitWords value))).toList := by
    rw [written, present, toList_apply_pascal, List.flatMap_append]
    exact List.prefix_append ..
  rw [Convention.globalConstantName, pascal, Convention.identifier]
  split
  · rw [String.toList_append]
    exact applied.trans (List.prefix_append ..)
  · exact applied

theorem isPrefix_of_mem_constants (pascal : c.typeCase = .pascal)
    (scope : c.constantScope = .global) {catalog : Catalog} {id : Nat} {values : List EnumValue}
    (found : catalog.shape? id = some (.enumeration values)) {n : Names}
    (named : (resolve c catalog)[id]? = some n) (plain : Plain n.type) (capital : Capital n.type) :
    n.constants.length = values.length ∧ ∀ constant ∈ n.constants,
      (humps none n.type.toList).flatMap (recased c.initialisms) <+: constant.toList := by
  obtain ⟨types, type, same⟩ := getElem?_resolve c catalog found
  obtain rfl := Option.some.inj (named.symm.trans same)
  rw [type_namesOf] at plain capital ⊢
  simp only [namesOf, scope]
  refine ⟨by rw [Scope.length_claimAll, List.length_map], ?_⟩
  refine Scope.forall_claimAll (P := fun constant =>
    (humps none type.toList).flatMap (recased c.initialisms) <+: constant.toList)
    (fun base k start => ?_) (List.forall_mem_map.2 fun v _ => ?_)
  · rw [Scope.numbered, String.toList_append]
    exact start.trans (List.prefix_append ..)
  · exact isPrefix_globalConstantName pascal plain capital v.value

end Conventions

open Binding (GoPackage.naming)

/-- The constants of an enumeration of Go, as many as its values, start with the letters of its
type's name. They start with the name itself just when Pascal case leaves all humps of the name as
they are: each that is an initialism is in capitals, and no other has a capital behind its first
letter. -/
theorem isPrefix_type_iff (schema : Schema) (rootName : String) {id : Nat} {d : Declaration}
    {values : List EnumValue} {n : Names}
    (declared : (Catalog.ofSchema schema rootName).declaration? id = some d)
    (shape : d.shape = .enumeration values)
    (named : (resolve GoPackage.naming (Catalog.ofSchema schema rootName))[id]? = some n) :
    n.constants.length = values.length ∧ ∀ constant ∈ n.constants,
      (asciiLower n.type).toList <+: (asciiLower constant).toList ∧
      (n.type.toList <+: constant.toList ↔
        ∀ hump ∈ rawWords n.type.toList, Settled GoPackage.naming.initialisms hump) := by
  have small : ∀ keyword ∈ GoPackage.naming.keywords, ¬ Capital keyword := by decide +kernel
  obtain ⟨plain, capital⟩ := (each_resolve (ensures_plain rfl rfl rfl small)
    (Catalog.ofSchema schema rootName) n (List.mem_of_getElem? named)).type
  have found : (Catalog.ofSchema schema rootName).shape? id = some (.enumeration values) := by
    rw [Catalog.shape?, declared, Option.map_some, shape]
  obtain ⟨count, starts⟩ := isPrefix_of_mem_constants rfl rfl found named plain capital
  refine ⟨count, fun constant listed => ⟨?_, ?_⟩⟩
  · rw [asciiLower, asciiLower, String.toList_map, String.toList_map,
      ← map_toLower_flatMap_recased plain GoPackage.naming.initialisms]
    exact (starts constant listed).map Char.toLower
  · rw [← flatMap_recased_eq_self_iff plain capital]
    constructor
    · intro start
      have length := length_flatMap_recased GoPackage.naming.initialisms (humps none n.type.toList)
      rw [flatten_humps] at length
      have inside := List.prefix_of_prefix_length_le (starts constant listed) start
        (Nat.le_of_eq length)
      exact inside.eq_of_length length
    · intro same
      exact same ▸ starts constant listed

/-- The names that Go gives an enumeration and its values. -/
def enumerationNames? (catalog : Catalog) (id : Nat) : Option (String × List String) :=
  match catalog.shape? id with
  | some (.enumeration _) =>
    (resolve GoPackage.naming catalog)[id]?.map fun n => (n.type, n.constants)
  | _ => none

theorem exists_of_enumerationNames? {catalog : Catalog} {id : Nat} {type : String}
    {constants : List String} (known : enumerationNames? catalog id = some (type, constants)) :
    ∃ d values n, catalog.declaration? id = some d ∧ d.shape = .enumeration values ∧
      (resolve GoPackage.naming catalog)[id]? = some n ∧ n.type = type ∧
      n.constants = constants := by
  unfold enumerationNames? at known
  split at known
  · rename_i values found
    obtain ⟨d, declared, shape⟩ := Option.map_eq_some_iff.1 found
    obtain ⟨n, named, same⟩ := Option.map_eq_some_iff.1 known
    obtain ⟨type, constants⟩ := Prod.mk.inj same
    exact ⟨d, values, n, declared, shape, named, type, constants⟩
  · cases known

/-- Two enumerations with initialisms in their names: two in a row, and one alone. -/
def request : Json :=
  .object [("properties", .object [
    ("http_id", .object [("enum", .array [.string "none"])]),
    ("user_id", .object [("enum", .array [.string "none"])])])]

theorem names_request :
    (Schema.ofJson request).toOption.map (fun schema =>
      (enumerationNames? (Catalog.ofSchema schema "request") 1,
        enumerationNames? (Catalog.ofSchema schema "request") 2)) =
      some (some ("RequestHTTPID", ["RequestHttpidNone"]),
        some ("RequestUserID", ["RequestUserIDNone"])) := by
  decide +kernel

theorem isPrefix_request :
    ∃ schema d values n, Schema.ofJson request = .ok schema ∧
      (Catalog.ofSchema schema "request").declaration? 2 = some d ∧
      d.shape = .enumeration values ∧
      (resolve GoPackage.naming (Catalog.ofSchema schema "request"))[2]? = some n ∧
      n.type = "RequestUserID" ∧ n.constants = ["RequestUserIDNone"] ∧
      n.constants.length = values.length ∧ ∀ constant ∈ n.constants,
        (asciiLower n.type).toList <+: (asciiLower constant).toList ∧
        (n.type.toList <+: constant.toList ↔
          ∀ hump ∈ rawWords n.type.toList, Settled GoPackage.naming.initialisms hump) := by
  obtain ⟨schema, read, found⟩ := Option.map_eq_some_iff.1 names_request
  obtain ⟨-, found⟩ := Prod.mk.inj found
  obtain ⟨d, values, n, declared, shape, named, type, constants⟩ :=
    exists_of_enumerationNames? found
  exact ⟨schema, d, values, n, eq_ok_of_toOption read, declared, shape, named, type, constants,
    isPrefix_type_iff schema "request" declared shape named⟩

/-- Where two initialisms stand side by side, the name of a type has them in capitals, and what its
constants start with has them as one word. -/
theorem not_isPrefix_request :
    ∃ schema d values n, Schema.ofJson request = .ok schema ∧
      (Catalog.ofSchema schema "request").declaration? 1 = some d ∧
      d.shape = .enumeration values ∧
      (resolve GoPackage.naming (Catalog.ofSchema schema "request"))[1]? = some n ∧
      n.type = "RequestHTTPID" ∧ n.constants = ["RequestHttpidNone"] ∧
      ¬ n.type.toList <+: "RequestHttpidNone".toList := by
  obtain ⟨schema, read, found⟩ := Option.map_eq_some_iff.1 names_request
  obtain ⟨found, -⟩ := Prod.mk.inj found
  obtain ⟨d, values, n, declared, shape, named, type, constants⟩ :=
    exists_of_enumerationNames? found
  have apart : ¬ "RequestHTTPID".toList <+: "RequestHttpidNone".toList := by decide
  exact ⟨schema, d, values, n, eq_ok_of_toOption read, declared, shape, named, type, constants,
    type ▸ apart⟩

end SchemaBindings.Naming

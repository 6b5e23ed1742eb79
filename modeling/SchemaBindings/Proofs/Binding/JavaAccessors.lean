import SchemaBindings.Proofs.Binding.CommentBounds
import SchemaBindings.Proofs.Binding.JavaFiles
import SchemaBindings.Proofs.Binding.JavaReading

/-! The accessors of a Java class. Members start with small letters, so that a capital in the place
of the first loses nothing: getters and setters are as distinct as the members are. No keyword is a
member, so that no getter takes the name of the method that every object has. -/

namespace SchemaBindings

namespace Naming

/-- A name that starts with a small letter. -/
def Small (name : String) : Prop := ∃ c rest, name.toList = c :: rest ∧ c.isLower = true

section Members

variable {c : Convention} {catalog : Catalog} {n : Names}

theorem Small.append {name : String} (small : Small name) (suffix : String) :
    Small (name ++ suffix) := by
  obtain ⟨first, rest, chars, lower⟩ := small
  exact ⟨first, rest ++ suffix.toList, by simp [chars], lower⟩

theorem small_memberName (lower : c.memberCase.first = .lower) (wireName : String) :
    Small (c.memberName wireName) := by
  obtain ⟨word, rest, present, first, chars, text, letter⟩ :=
    startsWithLetter_presentable fun word (member : word ∈ splitWords wireName) =>
      isAlphanum_of_mem_splitWords member
  obtain ⟨suffix, same⟩ := exists_apply c.memberCase c.initialisms word rest
  have joined : Small (c.memberCase.apply c.initialisms (presentable (splitWords wireName))) := by
    rw [present, same, lower]
    refine Small.append ⟨first.toLower, chars.map Char.toLower, ?_, ?_⟩ suffix
    · simp [capitalize, asciiLower, text]
    · exact of_isAlpha (P := fun c => c.toLower.isLower = true) (by decide) letter
  simp only [Convention.memberName, Convention.identifier]
  split
  · exact joined.append "_"
  · exact joined

/-- The members of a declaration are claimed in one scope. -/
theorem exists_claimed_members (named : n ∈ resolve c catalog) :
    ∃ (scope : Scope) (wireNames : List String),
      n.members = (scope.claimAll (wireNames.map c.memberName)).1 := by
  have ofMembers (scope : Scope) (members : List Member) :
      ∃ (scope' : Scope) (wireNames : List String),
        memberNames c scope members = (scope'.claimAll (wireNames.map c.memberName)).1 :=
    ⟨scope, members.map Member.wireName, by rw [memberNames, List.map_map]; rfl⟩
  have none : ∃ (scope : Scope) (wireNames : List String),
      [] = (scope.claimAll (wireNames.map c.memberName)).1 := ⟨.empty, [], rfl⟩
  obtain ⟨i, found⟩ := List.mem_iff_getElem?.1 named
  obtain ⟨types, same⟩ := getElem?_namesFrom c catalog (typeNames c catalog).2
    (catalog.declarations.zip (typeNames c catalog).1) i
  rw [resolve, same] at found
  obtain ⟨⟨d, type⟩, -, rfl⟩ := Option.map_eq_some_iff.1 found
  cases d.shape with
  | record members additional => exact ofMembers .empty members
  | variant parent tagValue members additional =>
    cases known : (tag? catalog parent).map c.memberName with
    | none => simpa only [namesOf, known] using ofMembers .empty members
    | some tag => simpa only [namesOf, known] using ofMembers (Scope.empty.reserve tag) members
  | union tag variants => exact ⟨_, variants.filterMap (tagValue? catalog), rfl⟩
  | enumeration values => cases scope : c.constantScope <;> simpa only [namesOf, scope] using none
  | wrapper inner => exact none

theorem nodup_members (named : n ∈ resolve c catalog) : n.members.Nodup := by
  obtain ⟨scope, wireNames, same⟩ := exists_claimed_members named
  exact same ▸ Scope.nodup_claimAll ..

theorem small_members (lower : c.memberCase.first = .lower) (named : n ∈ resolve c catalog) :
    ∀ member ∈ n.members, Small member := by
  obtain ⟨scope, wireNames, same⟩ := exists_claimed_members named
  rw [same]
  exact Scope.forall_claimAll (fun _ k small => small.append k.repr)
    (List.forall_mem_map.2 fun wireName _ => small_memberName lower wireName)

end Members

end Naming

namespace Binding.JavaClasses

open Naming (Capital IsIdentifier Small)

section Names

/-- What the name of an accessor starts with. -/
def verbs : List String := ["get", "set"]

/-- The names of the getter and the setter of a member. -/
def accessors (member : String) : List String := verbs.map (· ++ capitalized member)

theorem toList_capitalized {name : String} {c : Char} {rest : List Char}
    (chars : name.toList = c :: rest) : (capitalized name).toList = c.toUpper :: rest := by
  rw [capitalized, chars]
  exact String.toList_ofList

theorem isAlpha_of_isLower {c : Char} (lower : c.isLower = true) : c.isAlpha = true :=
  Bool.or_eq_true_iff.2 (.inr lower)

theorem capital_capitalized {name : String} (small : Small name) : Capital (capitalized name) := by
  obtain ⟨c, rest, chars, lower⟩ := small
  refine ⟨c.toUpper, rest, toList_capitalized chars, ?_⟩
  exact Naming.of_isAlpha (P := fun c => c.toUpper.isUpper = true) (by decide)
    (isAlpha_of_isLower lower)

/-- A small letter is found again in its capital, and nothing else is changed. -/
theorem eq_of_capitalized {a b : String} (smallA : Small a) (smallB : Small b)
    (same : capitalized a = capitalized b) : a = b := by
  have back {c : Char} (lower : c.isLower = true) : c.toUpper.toLower = c :=
    Naming.of_isAlpha (P := fun c => c.isLower = true → c.toUpper.toLower = c) (by decide)
      (isAlpha_of_isLower lower) lower
  obtain ⟨c, rest, charsA, lowerA⟩ := smallA
  obtain ⟨d, others, charsB, lowerB⟩ := smallB
  have texts := congrArg String.toList same
  rw [toList_capitalized charsA, toList_capitalized charsB] at texts
  obtain ⟨firsts, rfl⟩ := List.cons.inj texts
  have first : c = d := by rw [← back lowerA, ← back lowerB, firsts]
  rw [← String.toList_inj, charsA, charsB, first]

/-- Both verbs have three letters, so that the verb of a name and what follows it can be told. -/
theorem append_inj_of_verbs {v w a b : String} (first : v ∈ verbs) (second : w ∈ verbs)
    (same : v ++ a = w ++ b) : v = w ∧ a = b := by
  have three : ∀ verb ∈ verbs, verb.toList.length = 3 := by decide
  have texts := congrArg String.toList same
  rw [String.toList_append, String.toList_append] at texts
  obtain ⟨starts, others⟩ := List.append_inj texts ((three v first).trans (three w second).symm)
  exact ⟨String.toList_inj.1 starts, String.toList_inj.1 others⟩

/-- Distinct members have distinct accessors. -/
theorem nodup_flatMap_accessors {members : List String} (distinct : members.Nodup)
    (small : ∀ member ∈ members, Small member) : (members.flatMap accessors).Nodup := by
  have two : verbs.Nodup := by decide
  rw [List.nodup_flatMap]
  refine ⟨fun member _ => two.map_on fun v first w second same =>
    (append_inj_of_verbs first second same).1, ?_⟩
  refine distinct.imp_of_mem fun {a b} listedA listedB apart name ofA ofB => ?_
  obtain ⟨v, first, rfl⟩ := List.mem_map.1 ofA
  obtain ⟨w, second, same⟩ := List.mem_map.1 ofB
  exact apart (eq_of_capitalized (small a listedA) (small b listedB)
    (append_inj_of_verbs second first same).2.symm)

/-- Only a member that is called like the keyword would have the method that every object has. -/
theorem getClass_not_mem_accessors {member : String} (small : Small member)
    (other : member ≠ "class") : "getClass" ∉ accessors member := by
  intro listed
  obtain ⟨verb, known, same⟩ := List.mem_map.1 listed
  have whole : verb ++ capitalized member = "get" ++ "Class" := same
  obtain ⟨-, noun⟩ := append_inj_of_verbs known (by decide) whole
  have keyword : Small "class" := ⟨'c', _, rfl, by decide⟩
  exact other (eq_of_capitalized small keyword (noun.trans (by decide)))

/-- What the methods of a class promise: they are a getter and a setter for each member, no two of
them have one name, and none has the name of the method that no class may override. -/
structure Accessors (members methods : List String) : Prop where
  all : methods = members.flatMap accessors
  injective : ∀ a ∈ members, ∀ b ∈ members, capitalized a = capitalized b → a = b
  distinct : methods.Nodup
  named : ∀ name ∈ methods, ∃ verb ∈ verbs, ∃ noun, name = verb ++ noun ∧ Capital noun
  getClass : "getClass" ∉ methods

theorem accessors_of_members {members : List String} (distinct : members.Nodup)
    (small : ∀ member ∈ members, Small member) (legal : "class" ∉ members) :
    Accessors members (members.flatMap accessors) := by
  refine ⟨rfl, fun a listedA b listedB => eq_of_capitalized (small a listedA) (small b listedB),
    nodup_flatMap_accessors distinct small, fun name listed => ?_, fun listed => ?_⟩
  · obtain ⟨member, inside, own⟩ := List.mem_flatMap.1 listed
    obtain ⟨verb, known, rfl⟩ := List.mem_map.1 own
    exact ⟨verb, known, _, rfl, capital_capitalized (small member inside)⟩
  · obtain ⟨member, inside, own⟩ := List.mem_flatMap.1 listed
    exact getClass_not_mem_accessors (small member inside) (fun same => legal (same ▸ inside)) own

end Names

section Lines

/-- The method that a line opens. Its name is the word ahead of the parentheses, when these are
empty and a type stands ahead of it; any other method returns nothing. -/
def method? (line : String) : Option String :=
  (behind? "    public " line.toList).bind fun rest =>
    match behind? "\x7b )(" rest.reverse with
    | some back =>
      match word? back with
      | some (name, ' ' :: _) => some (.ofList name.reverse)
      | _ => none
    | none => ((behind? "void " rest).bind word?).map fun read => .ofList read.1

/-- The names of the methods that lines open. -/
def methods (lines : List String) : List String := lines.filterMap method?

theorem methods_append (xs ys : List String) : methods (xs ++ ys) = methods xs ++ methods ys :=
  List.filterMap_append

theorem methods_flatMap {α : Type} (items : List α) (lines : α → List String) :
    methods (items.flatMap lines) = items.flatMap fun item => methods (lines item) :=
  List.filterMap_flatMap ..

/-- Whatever follows this start of a line, the line opens no method. -/
def Silent (start : List Char) : Prop := ∀ rest, behind? "    public " (start ++ rest) = none

theorem method?_of_silent {line : String} (start : List Char) (silent : Silent start)
    (led : start <+: line.toList) : method? line = none := by
  obtain ⟨rest, text⟩ := led
  rw [method?, ← text, silent rest]
  rfl

theorem methods_comment {indent : String} (inside : indent ∈ ["", "    "])
    (described : Option String) : methods (comment indent described) = [] := by
  have opens : Silent (indent ++ "/**").toList := by
    rcases List.mem_pair.1 inside with rfl | rfl <;> exact fun _ => rfl
  have goesOn : Silent (indent ++ " *").toList := by
    rcases List.mem_pair.1 inside with rfl | rfl <;> exact fun _ => rfl
  have lead : Unicode.trimEnd (indent ++ " * ").toList = (indent ++ " *").toList := by
    rcases List.mem_pair.1 inside with rfl | rfl <;> decide
  have close : (indent ++ " */").toList = (indent ++ " *").toList ++ ['/'] := by simp
  cases described with
  | none => rfl
  | some text =>
    refine List.filterMap_eq_nil_iff.2 fun line member => ?_
    rcases List.mem_append.1 member with member | last
    · rcases List.mem_cons.1 member with rfl | between
      · exact method?_of_silent _ opens (List.prefix_refl _)
      · obtain ⟨words, -, rfl⟩ := List.mem_map.1 between
        exact method?_of_silent _ goesOn (lead ▸ prefix_commentLine _ words)
    · rw [List.mem_singleton.1 last]
      exact method?_of_silent _ goesOn ⟨['/'], close.symm⟩

theorem toList_ne_nil_of_isIdentifier {name : String} (named : IsIdentifier name) :
    name.toList ≠ [] := by
  obtain ⟨c, rest, text, -, -⟩ := named
  exact text ▸ List.cons_ne_nil c rest

/-- An identifier can be read from its end as well. -/
theorem word?_reverse_identifier {name : String} (named : IsIdentifier name) {rest : List Char}
    (ends : EndsWord rest) :
    word? (name.toList.reverse ++ rest) = some (name.toList.reverse, rest) :=
  word?_append (List.reverse_ne_nil_iff.2 (toList_ne_nil_of_isIdentifier named))
    (fun c member => isWordChar_of_isIdentifier named c (List.mem_reverse.1 member)) ends

theorem isIdentifier_accessor {verb member : String} (known : verb ∈ verbs)
    (named : IsIdentifier member) : IsIdentifier (verb ++ capitalized member) := by
  have words : ∀ verb ∈ verbs, IsIdentifier verb := by decide
  obtain ⟨c, rest, text, letter, others⟩ := named
  refine (words verb known).append fun d inside => ?_
  rw [toList_capitalized text] at inside
  rcases List.mem_cons.1 inside with rfl | later
  · exact .inl (Naming.isAlphanum_map (by rw [Char.isAlphanum, letter, Bool.true_or])).2
  · exact others d later

theorem method?_constructor {name : String} (named : IsIdentifier name) :
    method? ("    public " ++ name ++ "() \x7b") = none := by
  have text : ("    public " ++ name ++ "() \x7b").toList =
      "    public ".toList ++ (name.toList ++ "() \x7b".toList) := by simp
  have reversed : (name.toList ++ "() \x7b".toList).reverse =
      "\x7b )(".toList ++ (name.toList.reverse ++ []) := by simp
  rw [method?, text, behind?_append, Option.bind_some, reversed, behind?_append]
  simp only [word?_reverse_identifier named (by decide : EndsWord [])]

theorem method?_getter (type : String) {member : String} (named : IsIdentifier member) :
    method? ("    public " ++ type ++ " get" ++ capitalized member ++ "() \x7b") =
      some ("get" ++ capitalized member) := by
  have read := isIdentifier_accessor (by decide : "get" ∈ verbs) named
  have text : ("    public " ++ type ++ " get" ++ capitalized member ++ "() \x7b").toList =
      "    public ".toList ++ (type.toList ++
        ' ' :: ("get" ++ capitalized member).toList ++ "() \x7b".toList) := by simp
  have reversed : (type.toList ++
      ' ' :: ("get" ++ capitalized member).toList ++ "() \x7b".toList).reverse =
      "\x7b )(".toList ++
        (("get" ++ capitalized member).toList.reverse ++ ' ' :: type.toList.reverse) := by simp
  have ends : EndsWord (' ' :: type.toList.reverse) := rfl
  rw [method?, text, behind?_append, Option.bind_some, reversed, behind?_append]
  simp only [word?_reverse_identifier read ends, List.reverse_reverse, String.ofList_toList]

theorem method?_setter (type : String) {member : String} (named : IsIdentifier member) :
    method? ("    public void set" ++ capitalized member ++ "(" ++ type ++ " " ++ member ++
      ") \x7b") = some ("set" ++ capitalized member) := by
  have written := isIdentifier_accessor (by decide : "set" ∈ verbs) named
  let taking := '(' :: (type.toList ++ ' ' :: member.toList ++ ") \x7b".toList)
  have text : ("    public void set" ++ capitalized member ++ "(" ++ type ++ " " ++ member ++
      ") \x7b").toList = "    public ".toList ++
        ("void ".toList ++ (("set" ++ capitalized member).toList ++ taking)) := by simp [taking]
  -- The last letter of the parameter stands where a parenthesis would.
  obtain ⟨last, front, reversed⟩ := List.exists_cons_of_ne_nil
    (List.reverse_ne_nil_iff.2 (toList_ne_nil_of_isIdentifier named))
  have letter : '(' ≠ last := by
    rintro rfl
    have inside : '(' ∈ member.toList := List.mem_reverse.1 (reversed ▸ List.mem_cons_self)
    exact absurd (isWordChar_of_isIdentifier named _ inside) (by decide)
  have taken : behind? "\x7b )("
      ("void ".toList ++ (("set" ++ capitalized member).toList ++ taking)).reverse = none := by
    simp [taking, behind?, reversed, letter]
  rw [method?, text, behind?_append, Option.bind_some, taken]
  simp only [behind?_append, Option.bind_some, word?_identifier written (rfl : EndsWord taking),
    Option.map_some, String.ofList_toList]

theorem methods_accessorLines {member : String} (named : IsIdentifier member) (type : String)
    (described : Option String) :
    methods (accessorLines member type described) = accessors member := by
  have returns : method? ("        return " ++ member ++ ";") = none :=
    method?_of_silent "        return ".toList (fun _ => rfl) (by simp)
  have assigns : method? ("        this." ++ member ++ " = " ++ member ++ ";") = none :=
    method?_of_silent "        this.".toList (fun _ => rfl) (by simp)
  have blank : method? "" = none := rfl
  have close : method? "    \x7d" = none := rfl
  have comment := methods_comment (by decide : "    " ∈ ["", "    "]) described
  simp only [accessorLines, methods_append, comment]
  simp only [methods, List.filterMap_cons, List.filterMap_nil, method?_getter type named,
    method?_setter type named, returns, assigns, blank, close]
  rfl

theorem methods_fieldLines (f : Field Unit) : methods (fieldLines f) = [] := by
  have property : method? ("    @JsonProperty(" ++ Text.jsonString f.wireName ++ ")") = none :=
    method?_of_silent "    @JsonProperty(".toList (fun _ => rfl) (by simp)
  have declared : method? ("    private " ++ typeText f.type ++ " " ++ f.name ++ ";") = none :=
    method?_of_silent "    private ".toList (fun _ => rfl) (by simp)
  have blank : method? "" = none := rfl
  have included : methods (if f.required then []
      else ["    @JsonInclude(JsonInclude.Include.NON_NULL)"]) = [] := by
    cases f.required <;> rfl
  rw [fieldLines, methods_append, methods_append, methods_comment (by decide), included]
  simp only [methods, List.filterMap_cons, List.filterMap_nil, property, declared, blank,
    List.append_nil]

/-- The methods of a class are the accessors of its fields. -/
theorem methods_classLines {name : String} (named : IsIdentifier name) {fields : List (Field Unit)}
    (each : ∀ f ∈ fields, IsIdentifier f.name) (described base : Option String)
    (additional : Bool) :
    methods (classLines name described base fields additional) =
      (fields.map Field.name).flatMap accessors := by
  have allowed : methods (if additional then
      ["@JsonIgnoreProperties(ignoreUnknown = true)"] else []) = [] := by
    cases additional <;> rfl
  have head (clause : String) : methods ["public class " ++ name ++ clause ++ " \x7b"] = [] := by
    have silent : method? ("public class " ++ name ++ clause ++ " \x7b") = none :=
      method?_of_silent "public class ".toList (fun _ => rfl) (by simp)
    simp only [methods, List.filterMap_cons, List.filterMap_nil, silent]
  have constructor : methods ["    public " ++ name ++ "() \x7b", "    \x7d"] = [] := by
    have close : method? "    \x7d" = none := rfl
    simp only [methods, List.filterMap_cons, List.filterMap_nil, method?_constructor named, close]
  have serialized : methods ["@JsonSerialize"] = [] := rfl
  have close : methods ["\x7d"] = [] := rfl
  have comment := methods_comment (by decide : "" ∈ ["", "    "]) described
  have ahead : fields.flatMap (fun f => methods (fieldLines f)) = [] := by
    simp only [methods_fieldLines, List.flatMap_eq_nil_iff, implies_true]
  have behind : fields.flatMap (fun f =>
      methods (accessorLines f.name (typeText f.type) f.described)) =
        (fields.map Field.name).flatMap accessors := by
    rw [List.flatMap_map]
    exact List.flatMap_congr fun f member => methods_accessorLines (each f member) _ _
  simp only [classLines, methods_append, methods_flatMap, comment, serialized, allowed, head, ahead,
    constructor, behind, close, List.nil_append, List.append_nil]

end Lines

section Rendering

variable {document : Json} {schema : Schema} {rootName package : String} {rendered : Rendered}

/-- The declarations with members of their own. -/
inductive HasMembers : Shape → Prop
  | record (members : List Member) (additional : Bool) : HasMembers (.record members additional)
  | variant (parent : Nat) (tagValue : String) (members : List Member) (additional : Bool) :
      HasMembers (.variant parent tagValue members additional)

theorem HasMembers.length_members {names : Naming.Names} {shape : Shape} (holds : HasMembers shape)
    (fits : Catalog.Fits names shape) : names.members.length = shape.members.length := by
  cases holds <;> exact fits

/-- The file of a record or of a variant is that of one class. Its methods are the accessors of as
many names as the declaration has members. -/
def AccessorFile (package : String) (names : Naming.Names) (declaration : Declaration) (f : File) :
    Prop :=
  names.members.length = declaration.shape.members.length ∧
    ∃ described body,
      f = file package names.type (importsOf body) (bodyLines names.type described body) ∧
      Accessors names.members (methods (bodyLines names.type described body))

theorem methods_bodyLines {c : NamedCatalog} {names : Naming.Names} {shape : Shape}
    {body : Body Unit} (holds : HasMembers shape) (legal : names.Each naming.Legal)
    (fits : Catalog.Fits names shape) (bodyOf : BodyOf rules c names shape body)
    (described : Option String) :
    methods (bodyLines names.type described body) = names.members.flatMap accessors := by
  have ofFields {members : List Member} {fields : List (Field Unit)} (base : Option String)
      (additional : Bool) (count : names.members.length = members.length)
      (read : rules.fields c (members.zip names.members) = .ok fields) :
      methods (classLines names.type described base fields additional) =
        names.members.flatMap accessors := by
    have named : fields.map Field.name = names.members := by
      rw [map_name_fields read, List.map_snd_zip (Nat.le_of_eq count)]
    rw [methods_classLines legal.type.identifier ?_ described base additional, named]
    intro f listed
    exact (legal.members f.name (named ▸ List.mem_map_of_mem listed)).identifier
  cases holds with
  | record members additional =>
    cases bodyOf with
    | record read => exact ofFields none additional fits read
  | variant parent tagValue members additional =>
    cases bodyOf with
    | @variant _ _ _ _ base _ known read => exact ofFields (some base.text) additional fits read

/-- In every package that is rendered, each class of a record or of a variant has accessors that do
not clash, with one another or with the methods of every object. -/
theorem accessors_render (read : Schema.ofJson document = .ok schema)
    (renders : Target.render ⟨.java, package⟩ (Catalog.ofSchema schema rootName) = .ok rendered) :
    ∃ (emitted : List Declaration) (classFiles : List File) (helpers : List Unsigned),
      rendered.files = classFiles ++ helpers.map (helperFile package) ∧
      Emitted "javaJacksonType" (Catalog.ofSchema schema rootName) emitted ∧
      List.Forall₂ (fun d f => HasMembers d.shape →
        ∃ names ∈ (namedFor .java schema rootName).names,
          names.type = (namedFor .java schema rootName).typeName d.id ∧
          AccessorFile package names d f) emitted classFiles := by
  obtain ⟨emitted, drafts, same, all, each⟩ := exists_drafts_of_render read renders
  refine ⟨emitted, drafts.map (draftFile package), unsignedIn drafts, same, all, ?_⟩
  rw [List.forall₂_map_right_iff]
  refine each.imp fun declaration d written holds => ?_
  obtain ⟨names, listed, named, fits, bodyOf⟩ := written.body
  have legal : names.Each naming.Legal :=
    Naming.each_resolve (Naming.regular_naming .java).ensures _ names listed
  have free : "class" ∉ names.members := fun member =>
    (legal.members "class" member).unreserved (by decide)
  refine ⟨names, listed, named.symm.trans written.name, ?_, d.described, d.body, ?_, ?_⟩
  · exact holds.length_members fits
  · rw [draftFile, named]
  · rw [methods_bodyLines holds legal fits bodyOf]
    exact accessors_of_members (Naming.nodup_members listed)
      (Naming.small_members rfl listed) free

/-- Members that differ in nothing but capitals and an underscore from a keyword, in a record, and
in a variant whose tag is the keyword itself. -/
def likeKeyword : Json :=
  .object [
    ("definitions", .object [("shape", .object [
      ("discriminator", .string "class"),
      ("mapping", .object [("c", .object [
        ("properties", .object [("Class", .object [("type", .string "string")])]),
        ("optionalProperties", .object [("_class", .object [("ref", .string "shape")])])])])])]),
    ("properties", .object [
      ("class", .object [("type", .string "string")]),
      ("Class", .object [("type", .string "uint8")]),
      ("_class", .object [("ref", .string "shape")]),
      ("CLASS", .object [("type", .string "boolean")])])]

theorem accessors_likeKeyword :
    ∃ schema rendered, Schema.ofJson likeKeyword = .ok schema ∧
      Target.render ⟨.java, "p"⟩ (Catalog.ofSchema schema "root") = .ok rendered ∧
      (namedFor .java schema "root").names.map Naming.Names.members =
        [["class_", "class_0", "class_1", "class_2"], ["c"], ["class_0", "class_1"]] ∧
      ∃ (emitted : List Declaration) (classFiles : List File) (helpers : List Unsigned),
        rendered.files = classFiles ++ helpers.map (helperFile "p") ∧
        Emitted "javaJacksonType" (Catalog.ofSchema schema "root") emitted ∧
        List.Forall₂ (fun d f => HasMembers d.shape →
          ∃ names ∈ (namedFor .java schema "root").names,
            names.type = (namedFor .java schema "root").typeName d.id ∧
            AccessorFile "p" names d f) emitted classFiles := by
  have found : (Schema.ofJson likeKeyword).toOption.map (fun schema =>
      ((Target.render ⟨.java, "p"⟩ (Catalog.ofSchema schema "root")).isOk,
        (namedFor .java schema "root").names.map Naming.Names.members)) = some (true,
          [["class_", "class_0", "class_1", "class_2"], ["c"], ["class_0", "class_1"]]) := by
    decide +kernel
  obtain ⟨schema, read, found⟩ := Option.map_eq_some_iff.1 found
  obtain ⟨succeeds, members⟩ := Prod.mk.inj found
  have read := eq_ok_of_toOption read
  obtain ⟨rendered, renders⟩ := exists_of_isOk succeeds
  exact ⟨schema, rendered, read, renders, members, accessors_render read renders⟩

end Rendering

end Binding.JavaClasses

end SchemaBindings

import SchemaBindings.Unicode.Blank

/-! The part of TypeScript's grammar that types of plain data are written in: names, arrays, maps by
string keys, intersections and unions. The brackets of an array bind tighter than `&`, and `&` binds
tighter than `|`. A text is read in one way at most. -/

namespace SchemaBindings.TypeScript

section Words

inductive Token
  | word (text : List Char)
  /-- An opening bracket. One that starts a line does not continue the type before it. -/
  | bracket (startsLine : Bool)
  | mark (c : Char)
  deriving DecidableEq, Repr

def isLineBreak (c : Char) : Bool := "\n\r\u2028\u2029".toList.contains c

/-- Characters outside ASCII count as letters unless they are blank. -/
def isWordChar (c : Char) : Bool :=
  !Unicode.isBlank c && (c.isAlphanum || c == '_' || c == '$' || 128 ≤ c.toNat)

def startsWord (text : List Char) : Bool := text.head?.any isWordChar

/-- Puts a character in front of the word that comes first. -/
def lengthen (c : Char) : List Token → List Token
  | .word text :: rest => .word (c :: text) :: rest
  | tokens => .word [c] :: tokens

def startLine : List Token → List Token
  | .bracket _ :: rest => .bracket true :: rest
  | tokens => tokens

def tokens : List Char → List Token
  | [] => []
  | c :: rest =>
    if isLineBreak c then startLine (tokens rest)
    else if Unicode.isBlank c then tokens rest
    else if isWordChar c then
      if startsWord rest then lengthen c (tokens rest) else .word [c] :: tokens rest
    else if c = '[' then .bracket false :: tokens rest
    else .mark c :: tokens rest

/-- Whether a line break is part of the white space that the text ends in. -/
def endsLine : List Char → Bool
  | [] => false
  | c :: rest => endsLine rest || (isLineBreak c && rest.all Unicode.isBlank)

theorem isBlank_of_isLineBreak {c : Char} (break' : isLineBreak c = true) :
    Unicode.isBlank c = true := by
  have all : "\n\r\u2028\u2029".toList.all Unicode.isBlank = true := by decide
  exact List.all_eq_true.1 all c (List.contains_iff_mem.1 break')

theorem not_isBlank_of_isWordChar {c : Char} (word : isWordChar c = true) :
    Unicode.isBlank c = false := by
  rw [isWordChar, Bool.and_eq_true, Bool.not_eq_true'] at word
  exact word.1

theorem not_isLineBreak {c : Char} (visible : Unicode.isBlank c = false) :
    isLineBreak c = false := by
  rw [Bool.eq_false_iff]
  intro break'
  rw [isBlank_of_isLineBreak break'] at visible
  cases visible

theorem startLine_eq_nil {ts : List Token} (empty : startLine ts = []) : ts = [] := by
  cases ts with
  | nil => rfl
  | cons t rest => cases t <;> cases empty

theorem startLine_append {ts us : List Token} (some' : ts ≠ []) :
    startLine (ts ++ us) = startLine ts ++ us := by
  cases ts with
  | nil => exact absurd rfl some'
  | cons t rest => cases t <;> rfl

theorem lengthen_append (c : Char) {ts us : List Token} (some' : ts ≠ []) :
    lengthen c (ts ++ us) = lengthen c ts ++ us := by
  cases ts with
  | nil => exact absurd rfl some'
  | cons t rest => cases t <;> rfl

theorem lengthen_ne_nil (c : Char) (ts : List Token) : lengthen c ts ≠ [] := by
  unfold lengthen
  split <;> exact List.cons_ne_nil _ _

/-- A text without tokens is blank. -/
theorem isBlank_of_tokens_eq_nil {text : List Char} (empty : tokens text = []) :
    text.all Unicode.isBlank = true := by
  induction text with
  | nil => rfl
  | cons c rest ih =>
    rw [tokens] at empty
    rw [List.all_cons, Bool.and_eq_true]
    split at empty
    · exact ⟨isBlank_of_isLineBreak ‹_›, ih (startLine_eq_nil empty)⟩
    · split at empty
      · exact ⟨‹_›, ih empty⟩
      · split at empty
        · split at empty
          · exact absurd empty (lengthen_ne_nil c _)
          · cases empty
        · split at empty <;> cases empty

theorem tokens_ne_nil {text : List Char} (word : startsWord text = true) : tokens text ≠ [] := by
  intro empty
  cases text with
  | nil => cases word
  | cons c rest =>
    have blank := List.all_eq_true.1 (isBlank_of_tokens_eq_nil empty) c List.mem_cons_self
    simp only [startsWord, List.head?_cons, Option.any_some, isWordChar, blank, Bool.not_true,
      Bool.false_and, Bool.false_eq_true] at word

/-- The end of a text decides, unless it is blank. -/
theorem endsLine_append (a : List Char) {b : List Char} (visible : b.all Unicode.isBlank = false) :
    endsLine (a ++ b) = endsLine b := by
  induction a with
  | nil => rfl
  | cons c rest ih =>
    rw [List.cons_append, endsLine, ih, List.all_append, visible, Bool.and_false, Bool.and_false,
      Bool.or_false]

theorem endsLine_eq_false {text : List Char} (each : ∀ c ∈ text, Unicode.isBlank c = false) :
    endsLine text = false := by
  induction text with
  | nil => rfl
  | cons c rest ih =>
    obtain ⟨first, later⟩ := List.forall_mem_cons.1 each
    rw [endsLine, ih later, not_isLineBreak first, Bool.false_and, Bool.or_false]

theorem tokens_eq_nil_of_isBlank {text : List Char} (blank : text.all Unicode.isBlank = true) :
    tokens text = [] := by
  induction text with
  | nil => rfl
  | cons c rest ih =>
    rw [List.all_cons, Bool.and_eq_true] at blank
    rw [tokens, ih blank.2, blank.1]
    split <;> rfl

theorem startLine_startLine (ts : List Token) : startLine (startLine ts) = startLine ts := by
  cases ts with
  | nil => rfl
  | cons t rest => cases t <;> rfl

/-- The tokens of two texts are those of the one and those of the other, where the seam is not inside
a word. A bracket behind the seam may be the first thing on its line. -/
theorem tokens_append (a : List Char) {b : List Char} (apart : startsWord b = false) :
    tokens (a ++ b) = tokens a ++ if endsLine a then startLine (tokens b) else tokens b := by
  induction a with
  | nil => rfl
  | cons c rest ih =>
    have starts : startsWord (rest ++ b) = startsWord rest := by
      cases rest with
      | nil => exact apart
      | cons d more => rfl
    rw [List.cons_append, tokens, tokens, ih, starts, endsLine]
    by_cases break' : isLineBreak c = true
    · rw [if_pos break', if_pos break', break', Bool.true_and]
      by_cases empty : tokens rest = []
      -- Only blanks are between this break and the seam, so what follows starts a line.
      · have more : (endsLine rest || rest.all Unicode.isBlank) = true := by
          rw [isBlank_of_tokens_eq_nil empty, Bool.or_true]
        rw [empty, List.nil_append, more, if_pos rfl]
        split
        · exact startLine_startLine _
        · rfl
      · have visible : rest.all Unicode.isBlank = false :=
          Bool.eq_false_iff.2 fun blank => empty (tokens_eq_nil_of_isBlank blank)
        rw [visible, Bool.or_false]
        exact startLine_append empty
    · rw [if_neg break', if_neg break', Bool.eq_false_iff.2 break', Bool.false_and, Bool.or_false]
      split
      · rfl
      · split
        · split
          · exact lengthen_append c (tokens_ne_nil ‹_›)
          · rfl
        · split <;> rfl

theorem tokens_append_suffix (text : String) {suffix : String}
    (apart : startsWord suffix.toList = false) :
    tokens (text ++ suffix).toList = tokens text.toList ++
      if endsLine text.toList then startLine (tokens suffix.toList) else tokens suffix.toList := by
  rw [String.toList_append, tokens_append _ apart]

/-- A suffix that starts with no bracket may stand on a line of its own. -/
theorem tokens_append_of_startLine (text : String) {suffix : String}
    (apart : startsWord suffix.toList = false)
    (kept : startLine (tokens suffix.toList) = tokens suffix.toList) :
    tokens (text ++ suffix).toList = tokens text.toList ++ tokens suffix.toList := by
  rw [tokens_append_suffix text apart, kept, ite_self]

/-- A text of characters that stand in words is one word. -/
theorem tokens_word {word : List Char} (some' : word ≠ [])
    (each : ∀ c ∈ word, isWordChar c = true) : tokens word = [.word word] := by
  induction word with
  | nil => exact absurd rfl some'
  | cons c rest ih =>
    obtain ⟨first, later⟩ := List.forall_mem_cons.1 each
    have visible := not_isBlank_of_isWordChar first
    rw [tokens, not_isLineBreak visible, visible, first]
    cases rest with
    | nil => rfl
    | cons d more =>
      have word : startsWord (d :: more) = true := (List.forall_mem_cons.1 later).1
      rw [word, ih (List.cons_ne_nil _ _) later]
      rfl

theorem mark_mem_startLine {c : Char} {ts : List Token} :
    .mark c ∈ startLine ts ↔ .mark c ∈ ts := by
  unfold startLine
  split <;> simp

theorem mark_mem_lengthen {c d : Char} {ts : List Token} :
    .mark c ∈ lengthen d ts ↔ .mark c ∈ ts := by
  unfold lengthen
  split <;> simp

/-- A mark is among the tokens of a text when its character is in the text. -/
theorem mark_mem_tokens {c : Char} (visible : Unicode.isBlank c = false)
    (other : isWordChar c = false) (different : c ≠ '[') (text : List Char) :
    .mark c ∈ tokens text ↔ c ∈ text := by
  induction text with
  | nil => simp [tokens]
  | cons d rest ih =>
    have apart {test : Char → Bool} (own : test d = true) (lacks : test c = false) :
        c ∈ d :: rest ↔ .mark c ∈ tokens rest := by
      rw [List.mem_cons, ih, or_iff_right]
      rintro rfl
      rw [own] at lacks
      cases lacks
    rw [tokens]
    split
    · rw [mark_mem_startLine, apart (isBlank_of_isLineBreak ‹_›) visible]
    · split
      · rw [apart ‹_› visible]
      · split
        · rw [apart ‹_› other]
          split
          · exact mark_mem_lengthen
          · simp
        · split
          · rename_i bracket
            simp [ih, bracket ▸ different]
          · simp [ih]

end Words

section Types

/-- A type as it is meant, without the parentheses it is written with. -/
inductive TypeTree
  | predefined (word : String)
  | reference (name : String)
  | array (item : TypeTree)
  /-- An object with values of one type for any string keys. -/
  | map (item : TypeTree)
  | intersection (left right : TypeTree)
  | union (left right : TypeTree)
  deriving DecidableEq, Repr

/-- The words for the types that TypeScript has itself. -/
def predefinedTypes : List String :=
  ["any", "bigint", "boolean", "never", "null", "number", "object", "string", "symbol",
   "undefined", "unknown", "void"]

def named (word : List Char) : TypeTree :=
  if predefinedTypes.contains (String.ofList word) then .predefined (String.ofList word)
  else .reference (String.ofList word)

def isName (word : List Char) : Bool := word.head?.any (!·.isDigit)

/-- What an object type with an index signature has before the type of its values. -/
def signature (key : List Char) : List Token :=
  [.mark '\x7b', .bracket false, .word key, .mark ':', .word "string".toList, .mark ']', .mark ':']

inductive Level
  | primary | intersection | union

/-- The tokens are those of a type at a level of precedence. -/
inductive Derives : Level → List Token → TypeTree → Prop
  | name {word : List Char} (isName : isName word = true) :
      Derives .primary [.word word] (named word)
  | array {ts : List Token} {t : TypeTree} (item : Derives .primary ts t) :
      Derives .primary (ts ++ [.bracket false, .mark ']']) (.array t)
  | map {key : List Char} {ts : List Token} {t : TypeTree} (isName : isName key = true)
      (item : Derives .union ts t) :
      Derives .primary (signature key ++ (ts ++ [.mark '\x7d'])) (.map t)
  | group {ts : List Token} {t : TypeTree} (inner : Derives .union ts t) :
      Derives .primary (.mark '(' :: (ts ++ [.mark ')'])) t
  | primary {ts : List Token} {t : TypeTree} (alone : Derives .primary ts t) :
      Derives .intersection ts t
  | both {ls rs : List Token} {l r : TypeTree} (left : Derives .intersection ls l)
      (right : Derives .primary rs r) :
      Derives .intersection (ls ++ .mark '&' :: rs) (.intersection l r)
  | intersection {ts : List Token} {t : TypeTree} (alone : Derives .intersection ts t) :
      Derives .union ts t
  | either {ls rs : List Token} {l r : TypeTree} (left : Derives .union ls l)
      (right : Derives .intersection rs r) :
      Derives .union (ls ++ .mark '|' :: rs) (.union l r)

def TypeTree.orNull (nullable : Bool) (tree : TypeTree) : TypeTree :=
  if nullable then .union tree (.predefined "null") else tree

/-- TypeScript reads the text as the type. -/
def Reads (text : String) (tree : TypeTree) : Prop := Derives .union (tokens text.toList) tree

end Types

section Reading

/-- What a reader has of a type: the alternatives before the one it is in, what that one has in common
with what follows, and the operand that it stands behind. -/
structure Part where
  alternatives : Option TypeTree
  common : Option TypeTree
  operand : Option TypeTree

def Part.fresh : Part := ⟨none, none, none⟩

def both (common : Option TypeTree) (operand : TypeTree) : TypeTree :=
  common.elim operand (.intersection · operand)

def either (alternatives : Option TypeTree) (last : TypeTree) : TypeTree :=
  alternatives.elim last (.union · last)

inductive Opening
  | group | map

structure Reader where
  /-- What has to follow before anything else. -/
  awaited : List (Token → Bool)
  part : Part
  /-- What has been opened, and what was read before. -/
  outer : List (Opening × Part)

def isWord : Token → Bool
  | .word text => isName text
  | _ => false

/-- What follows the brace of an object type. -/
def signatureTests : List (Token → Bool) :=
  [(· == .bracket false), isWord, (· == .mark ':'), (· == .word "string".toList),
   (· == .mark ']'), (· == .mark ':')]

def Reader.step : Reader → Token → Option Reader
  | ⟨test :: awaited, part, outer⟩, token =>
    if test token then some ⟨awaited, part, outer⟩ else none
  | ⟨[], ⟨as, c, none⟩, outer⟩, .word text =>
    if isName text then some ⟨[], ⟨as, c, some (named text)⟩, outer⟩ else none
  | ⟨[], ⟨as, c, none⟩, outer⟩, .mark '(' => some ⟨[], .fresh, (.group, ⟨as, c, none⟩) :: outer⟩
  | ⟨[], ⟨as, c, none⟩, outer⟩, .mark '\x7b' =>
    some ⟨signatureTests, .fresh, (.map, ⟨as, c, none⟩) :: outer⟩
  | ⟨[], ⟨as, c, some o⟩, outer⟩, .bracket false =>
    some ⟨[(· == .mark ']')], ⟨as, c, some (.array o)⟩, outer⟩
  | ⟨[], ⟨as, c, some o⟩, outer⟩, .mark '&' => some ⟨[], ⟨as, some (both c o), none⟩, outer⟩
  | ⟨[], ⟨as, c, some o⟩, outer⟩, .mark '|' =>
    some ⟨[], ⟨some (either as (both c o)), none, none⟩, outer⟩
  | ⟨[], ⟨as, c, some o⟩, (.group, before) :: outer⟩, .mark ')' =>
    some ⟨[], { before with operand := some (either as (both c o)) }, outer⟩
  | ⟨[], ⟨as, c, some o⟩, (.map, before) :: outer⟩, .mark '\x7d' =>
    some ⟨[], { before with operand := some (.map (either as (both c o))) }, outer⟩
  | _, _ => none

def Reader.run (r : Reader) (ts : List Token) : Option Reader := ts.foldlM Reader.step r

/-- The type that a text is read as, if it is read. -/
def read? (text : String) : Option TypeTree :=
  match Reader.run ⟨[], .fresh, []⟩ (tokens text.toList) with
  | some ⟨[], ⟨as, c, some o⟩, []⟩ => some (either as (both c o))
  | _ => none

theorem Reader.run_append (r : Reader) (ts us : List Token) :
    r.run (ts ++ us) = (r.run ts).bind (·.run us) := List.foldlM_append

theorem Reader.run_cons (r : Reader) (t : Token) (ts : List Token) :
    r.run (t :: ts) = (r.step t).bind (·.run ts) := List.foldlM_cons

/-- What reading tokens of a level comes to: an operand, an operand with what is common to it, or that
behind other alternatives. What was read before, or is open, stays as it is. -/
def Level.Reaches (ts : List Token) (t : TypeTree) : Level → Prop
  | .primary => ∀ as c outer, Reader.run ⟨[], ⟨as, c, none⟩, outer⟩ ts =
      some ⟨[], ⟨as, c, some t⟩, outer⟩
  | .intersection => ∀ as outer, ∃ c o, Reader.run ⟨[], ⟨as, none, none⟩, outer⟩ ts =
      some ⟨[], ⟨as, c, some o⟩, outer⟩ ∧ both c o = t
  | .union => ∀ outer, ∃ as c o, Reader.run ⟨[], .fresh, outer⟩ ts =
      some ⟨[], ⟨as, c, some o⟩, outer⟩ ∧ either as (both c o) = t

theorem reaches_of_derives {level : Level} {ts : List Token} {t : TypeTree}
    (derives : Derives level ts t) : level.Reaches ts t := by
  -- What is open around a type is left general: a group and a map are read with themselves open.
  induction derives with
  | @name word isName =>
    intro as c outer
    rw [Reader.run_cons, Reader.step, if_pos isName]
    rfl
  | array _ ih =>
    intro as c outer
    rw [Reader.run_append, ih]
    rfl
  | @map key ts t isName _ ih =>
    intro as c outer
    obtain ⟨as', c', o, run, rfl⟩ := ih ((.map, ⟨as, c, none⟩) :: outer)
    have head : Reader.run ⟨[], ⟨as, c, none⟩, outer⟩ (signature key) =
        some ⟨[], .fresh, (.map, ⟨as, c, none⟩) :: outer⟩ := by
      have word : isWord (.word key) = true := isName
      simp only [signature, Reader.run_cons, Reader.step, signatureTests, word, Option.bind_some,
        if_true, beq_self_eq_true]
      rfl
    rw [Reader.run_append, head, Option.bind_some, Reader.run_append, run]
    rfl
  | group _ ih =>
    intro as c outer
    obtain ⟨as', c', o, run, rfl⟩ := ih ((.group, ⟨as, c, none⟩) :: outer)
    rw [Reader.run_cons, Reader.step, Option.bind_some, Reader.run_append, run]
    rfl
  | primary _ ih => exact fun as outer => ⟨none, _, ih as none outer, rfl⟩
  | both _ _ left right =>
    intro as outer
    obtain ⟨c, o, run, rfl⟩ := left as outer
    refine ⟨some (both c o), _, ?_, rfl⟩
    rw [Reader.run_append, run, Option.bind_some, Reader.run_cons, Reader.step, Option.bind_some,
      right]
  | intersection _ ih =>
    intro outer
    obtain ⟨c, o, run, rfl⟩ := ih none outer
    exact ⟨none, c, o, run, rfl⟩
  | either _ _ left right =>
    intro outer
    obtain ⟨as, c, o, run, rfl⟩ := left outer
    obtain ⟨c', o', last, rfl⟩ := right (some (either as (both c o))) outer
    refine ⟨some (either as (both c o)), c', o', ?_, rfl⟩
    rw [Reader.run_append, run, Option.bind_some, Reader.run_cons, Reader.step, Option.bind_some,
      last]

/-- What a text is the text of, it is read as. -/
theorem read?_of_reads {text : String} {tree : TypeTree} (reads : Reads text tree) :
    read? text = some tree := by
  obtain ⟨as, c, o, run, rfl⟩ := reaches_of_derives reads []
  rw [read?, run]

theorem Reads.unique {text : String} {t u : TypeTree} (first : Reads text t)
    (second : Reads text u) : t = u :=
  Option.some.inj ((read?_of_reads first).symm.trans (read?_of_reads second))

theorem reads_iff {text : String} {tree : TypeTree} (reads : Reads text tree) (other : TypeTree) :
    Reads text other ↔ other = tree :=
  ⟨fun second => second.unique reads, fun same => same ▸ reads⟩

end Reading

end SchemaBindings.TypeScript

import SchemaBindings.Proofs.Binding.Printable
import SchemaBindings.Proofs.Text.Literals

/-! Reading the text of a declaration back: which names and values of JSON it stands for. A line is
cut into tokens without regard to the lines around it. Notes, which are tokens that only say
something of what follows them, are kept until a token that they belong to. -/

namespace SchemaBindings.Binding

open Naming (IsIdentifier)
open Text (quoted? asciiQuoted? splitAtEach)

/-- A member as JSON knows it. -/
structure Slot where
  wireName : String
  required : Bool
  /-- The text that the member is fixed to, if to any. -/
  value : Option String
  deriving DecidableEq, Repr

/-- The member in JSON that a field stands for. -/
def Field.slot {μ : Type} (f : Field μ) : Slot := ⟨f.wireName, f.required, none⟩

/-- What the text of a declaration tells of JSON. -/
inductive Entry
  | name (name : String)
  | slot (slot : Slot)
  | choice (value constant : String)
  | tag (wireName : String)
  /-- The type of a variant, as it is written. -/
  | variant (tagValue type : String)
  /-- The member of a struct that a variant is decoded into. -/
  | decoding (tagValue member : String)
  /-- A member of a struct that no name in JSON is written beside. -/
  | typed (member type : String)
  /-- The types that a value can be one of. -/
  | alternatives (types : List String)
  deriving DecidableEq, Repr

/-- What the text of a declaration tells of its body. The slots in `lead` are those that a variant
has ahead of its own; how a union and what is wrapped are written is left to the language. -/
def Body.told {μ : Type} (name : String) (lead : List Slot)
    (union : String → List Case → List Entry) (wrapped : TypeExpr → List Entry) :
    Body μ → List Entry
  | .record fields _ => .name name :: fields.map (.slot ·.slot)
  | .variant _ _ fields _ => .name name :: (lead ++ fields.map Field.slot).map .slot
  | .enumeration choices => .name name :: choices.map fun c => .choice c.value c.constant
  | .union tag cases => union tag cases
  | .wrapper inner => .name name :: wrapped inner

/-- What is said of a part ahead of it. -/
structure Notes where
  wireName : Option String := none
  required : Bool := true
  value : Option String := none

inductive Token
  | wireName (name : String)
  | optional
  | value (text : String)
  /-- A member. Where no name in JSON is written, a language may take the member's own. -/
  | member (name : Option String)
  | constant (name : String)
  | variant (type : String)
  | decoding (member : String)
  | entry (entry : Entry)

/-- What tokens say, when `notes` are what the tokens before them leave to be used. -/
def entriesFrom (notes : Notes) : List Token → List Entry
  | [] => []
  | .wireName name :: rest => entriesFrom { notes with wireName := some name } rest
  | .optional :: rest => entriesFrom { notes with required := false } rest
  | .value text :: rest => entriesFrom { notes with value := some text } rest
  | .member name :: rest =>
    ((notes.wireName.or name).map fun name =>
      .slot ⟨name, notes.required, notes.value⟩).toList ++ entriesFrom {} rest
  | .constant name :: rest => .choice (notes.wireName.getD name) name :: entriesFrom {} rest
  | .variant type :: rest => (notes.wireName.map (.variant · type)).toList ++ entriesFrom {} rest
  | .decoding member :: rest =>
    (notes.wireName.map (.decoding · member)).toList ++ entriesFrom {} rest
  | .entry entry :: rest => entry :: entriesFrom notes rest

section Words

def isWordChar (c : Char) : Bool := c.isAlphanum || c == '_' || c == '$'

/-- The word at the start of a text, and the text behind it. -/
def word? (text : List Char) : Option (List Char × List Char) :=
  match text.takeWhile isWordChar with
  | [] => none
  | c :: rest => some (c :: rest, text.dropWhile isWordChar)

/-- The text behind a start. -/
def behind? (start : String) (text : List Char) : Option (List Char) :=
  if start.toList.isPrefixOf text then some (text.drop start.toList.length) else none

/-- The word behind one of some starts is the name of a declaration. -/
def declared (starts : List String) (line : List Char) : List Token :=
  ((starts.findSome? (behind? · line)).bind word?).elim [] fun read =>
    [.entry (.name (.ofList read.1))]

/-- No word goes on with this text. -/
def EndsWord (rest : List Char) : Prop := rest.head?.all (!isWordChar ·) = true

instance (rest : List Char) : Decidable (EndsWord rest) := inferInstanceAs (Decidable (_ = _))

theorem behind?_append (start : String) (rest : List Char) :
    behind? start (start.toList ++ rest) = some rest := by
  rw [behind?, if_pos (List.isPrefixOf_iff_prefix.2 (List.prefix_append ..)), List.drop_left]

theorem word?_append {word rest : List Char} (some' : word ≠ [])
    (chars : ∀ c ∈ word, isWordChar c = true) (ends : EndsWord rest) :
    word? (word ++ rest) = some (word, rest) := by
  have stops : rest.takeWhile isWordChar = [] ∧ rest.dropWhile isWordChar = rest := by
    cases rest with
    | nil => exact ⟨rfl, rfl⟩
    | cons c rest =>
      have stop : ¬ isWordChar c = true := by simpa [EndsWord] using ends
      exact ⟨List.takeWhile_cons_of_neg stop, List.dropWhile_cons_of_neg stop⟩
  obtain ⟨c, others, rfl⟩ := List.exists_cons_of_ne_nil some'
  rw [word?, List.takeWhile_append_of_pos chars, List.dropWhile_append_of_pos chars, stops.1,
    stops.2, List.append_nil]

theorem isWordChar_of_isIdentifier {name : String} (named : IsIdentifier name) :
    ∀ c ∈ name.toList, isWordChar c = true := by
  obtain ⟨c, rest, text, letter, others⟩ := named
  rw [text]
  refine List.forall_mem_cons.2 ⟨by simp [isWordChar, Char.isAlphanum, letter], fun d later => ?_⟩
  rcases others d later with alphanum | rfl
  · simp [isWordChar, alphanum]
  · rfl

theorem word?_identifier {name : String} (named : IsIdentifier name) {rest : List Char}
    (ends : EndsWord rest) : word? (name.toList ++ rest) = some (name.toList, rest) := by
  refine word?_append ?_ (isWordChar_of_isIdentifier named) ends
  obtain ⟨c, others, text, -, -⟩ := named
  rw [text]
  exact List.cons_ne_nil c others

end Words

section Languages

namespace JavaClasses

def caseTokens (text : List Char) : List Token :=
  (quoted? text).elim [] fun (tagValue, rest) =>
    ((behind? ", value = " rest).bind word?).elim [] fun (type, _) =>
      [.wireName tagValue, .variant (.ofList type)]

/-- The tokens of a line between the braces of a class. -/
def innerTokens (line : List Char) : List Token :=
  match word? line with
  | some (constant, ',' :: _) => [.constant (.ofList constant)]
  | some (word, ' ' :: _) => if word = "private".toList then [.member none] else []
  | some _ => []
  | none =>
    match behind? "@JsonProperty(" line, behind? "@JsonSubTypes.Type(name = " line,
      behind? "@JsonInclude(" line with
    | some rest, _, _ => (quoted? rest).elim [] fun read => [.wireName read.1]
    | none, some rest, _ => caseTokens rest
    | none, none, some _ => [.optional]
    | none, none, none => []

def outerTokens (line : List Char) : List Token :=
  match behind? "@JsonTypeInfo(use = JsonTypeInfo.Id.NAME, property = " line with
  | some rest => (quoted? rest).elim [] fun read => [.entry (.tag read.1)]
  | none => declared ["public class ", "public enum ", "public abstract class "] line

def tokens (line : List Char) : List Token :=
  (behind? "    " line).elim (outerTokens line) innerTokens

end JavaClasses

namespace RustModule

/-- The tokens of a line between the braces of a struct or an enum. -/
def innerTokens (line : List Char) : List Token :=
  match word? line with
  | some (constant, ',' :: _) => [.constant (.ofList constant)]
  | some (_, '(' :: rest) => (word? rest).elim [] fun read => [.variant (.ofList read.1)]
  | some (word, ' ' :: rest) =>
    if word = "pub".toList then
      (word? rest).elim [] fun read => [.member (some (.ofList read.1))]
    else []
  | some _ => []
  | none =>
    match behind? "#[serde(rename = " line, behind? "#[serde(default" line with
    | some rest, _ => (asciiQuoted? rest).elim [] fun read => [.wireName read.1]
    | none, some _ => [.optional]
    | none, none => []

def outerTokens (line : List Char) : List Token :=
  match behind? "#[serde(tag = " line with
  | some rest => (asciiQuoted? rest).elim [] fun read => [.entry (.tag read.1)]
  | none => declared ["pub struct ", "pub enum "] line

def tokens (line : List Char) : List Token :=
  (behind? "    " line).elim (outerTokens line) innerTokens

end RustModule

namespace GoPackage

/-- The name and the options that a struct tag has for JSON, between its quotes. An empty name says
nothing, and a hyphen alone hides the member. -/
def readTag? (tag : List Char) : Option (String × List (List Char)) :=
  match splitAtEach (· == ',') tag with
  | [] => none
  | name :: options =>
    if name = [] ∨ name = ['-'] ∧ options = [] then none else some (.ofList name, options)

/-- The struct tag at the end of a line, which no other backquote stands before. -/
def tagIn? (text : List Char) : Option (String × List (List Char)) :=
  (behind? "\x60json:\"" (text.dropWhile (· != '\x60'))).bind fun rest =>
    readTag? (rest.takeWhile (· != '"'))

/-- What follows the name of a member, which ends with a struct tag or else with a type, or of a
constant, which ends with a literal. -/
def memberTokens (name : String) (text : List Char) : List Token :=
  if text.getLast? = some '\x60' then
    (tagIn? text).elim [] fun (wireName, options) =>
      .wireName wireName :: (if options.contains "omitempty".toList then [.optional] else []) ++
        [.member none]
  else if text.getLast? = some '"' then
    ((behind? " = " (text.dropWhile isWordChar)).bind quoted?).elim [] fun read =>
      [.wireName read.1, .constant name]
  else [.entry (.typed name (.ofList text))]

/-- The tokens of a line with a word behind one tab. What is exported starts with a capital
letter. -/
def innerTokens (word : List Char) : List Char → List Token
  | ' ' :: rest =>
    if word.head?.any Char.isUpper then memberTokens (.ofList word) rest
    else if word = "case".toList then (quoted? rest).elim [] fun read => [.wireName read.1]
    else []
  | _ => []

/-- The member with the tag, in a struct that is made for it. -/
def tagTokens (line : List Char) : List Token :=
  ((behind? "T " line).bind tagIn?).elim [] fun read => [.entry (.tag read.1)]

/-- The tokens of a line behind two tabs. -/
def statementTokens (line : List Char) : List Token :=
  match behind? "err = json.Unmarshal(b, &v." line with
  | some rest => (word? rest).elim [] fun read => [.decoding (.ofList read.1)]
  | none => tagTokens line

/-- The tokens of a line behind three tabs. -/
def embeddedTokens (line : List Char) : List Token :=
  match word? line with
  | some (type, []) => [.variant (.ofList type)]
  | _ => tagTokens line

def tokens (line : List Char) : List Token :=
  match behind? "\t" line with
  | none => declared ["type "] line
  | some line =>
    match word? line, behind? "\t" line with
    | some (word, rest), _ => innerTokens word rest
    | none, none => []
    | none, some line => (behind? "\t" line).elim (statementTokens line) embeddedTokens

end GoPackage

namespace TypeScriptModule

def alternative? (part : List Char) : Option String :=
  (word? (part.dropWhile (· == ' '))).map fun read => .ofList read.1

def alternativesIn (text : List Char) : List String :=
  (splitAtEach (· == '|') text).filterMap alternative?

/-- What follows a key or a constant. A key with a literal for its type has no other value. -/
def memberTokens (name : String) : List Char → List Token
  | '?' :: ':' :: ' ' :: _ => [.wireName name, .optional, .member none]
  | ':' :: ' ' :: type =>
    .wireName name :: ((quoted? type).elim [] fun read => [.value read.1]) ++ [.member none]
  | ' ' :: '=' :: ' ' :: rest =>
    (quoted? rest).elim [] fun read => [.wireName read.1, .constant name]
  | _ => []

/-- The tokens of a line between the braces of an interface or an enum. -/
def innerTokens (line : List Char) : List Token :=
  match word? line with
  | some (name, rest) => memberTokens (.ofList name) rest
  | none => (quoted? line).elim [] fun (name, rest) => memberTokens name rest

def outerTokens (line : List Char) : List Token :=
  match (behind? "export type " line).bind word? with
  | some (name, rest) =>
    .entry (.name (.ofList name)) :: (behind? " = " rest).elim [] fun text =>
      [.entry (.alternatives (alternativesIn text))]
  | none => declared ["export interface ", "export enum "] line

def tokens (line : List Char) : List Token :=
  (behind? "  " line).elim (outerTokens line) innerTokens

end TypeScriptModule

def tokens : Language → List Char → List Token
  | .java => JavaClasses.tokens
  | .rust => RustModule.tokens
  | .go => GoPackage.tokens
  | .typescript => TypeScriptModule.tokens

/-- What the text of a declaration tells of JSON, doc comments apart. -/
def readBack (language : Language) (text : String) : List Entry :=
  entriesFrom {} ((withoutDocs language text).flatMap (tokens language))

end Languages

section Reading

variable {language : Language}

def lineTokens (language : Language) (lines : List String) : List Token :=
  lines.flatMap fun line => tokens language line.toList

/-- Lines say this, whatever follows them, and leave no note behind. -/
def Tells (language : Language) (lines : List String) (entries : List Entry) : Prop :=
  ∀ rest, entriesFrom {} (lineTokens language lines ++ rest) = entries ++ entriesFrom {} rest

theorem Tells.nil : Tells language [] [] := fun _ => rfl

theorem Tells.append {xs ys : List String} {es fs : List Entry} (first : Tells language xs es)
    (later : Tells language ys fs) : Tells language (xs ++ ys) (es ++ fs) := by
  intro rest
  rw [lineTokens, List.flatMap_append, List.append_assoc, ← lineTokens, ← lineTokens, first, later,
    List.append_assoc]

theorem Tells.cons {line : String} {lines : List String} {es fs : List Entry}
    (first : Tells language [line] es) (later : Tells language lines fs) :
    Tells language (line :: lines) (es ++ fs) :=
  first.append later

theorem Tells.flatMap {α : Type} {items : List α} {lines : α → List String} {es : α → List Entry}
    (each : ∀ item ∈ items, Tells language (lines item) (es item)) :
    Tells language (items.flatMap lines) (items.flatMap es) := by
  induction items with
  | nil => exact .nil
  | cons item rest ih =>
    obtain ⟨first, later⟩ := List.forall_mem_cons.1 each
    exact first.append (ih later)

theorem Tells.map {α : Type} {items : List α} {lines : α → List String} {entry : α → Entry}
    (each : ∀ item ∈ items, Tells language (lines item) [entry item]) :
    Tells language (items.flatMap lines) (items.map entry) := by
  rw [List.map_eq_flatMap]
  exact .flatMap each

/-- Lines without tokens say nothing. -/
theorem tells_nothing {lines : List String} (silent : lineTokens language lines = []) :
    Tells language lines [] := by
  intro rest
  rw [silent]
  rfl

theorem Tells.congr {lines : List String} {es fs : List Entry} (tells : Tells language lines es)
    (same : es = fs) : Tells language lines fs :=
  same ▸ tells

theorem tells_of_tokens {lines : List String} {told : List Token} {entries : List Entry}
    (cut : lineTokens language lines = told)
    (means : ∀ rest, entriesFrom {} (told ++ rest) = entries ++ entriesFrom {} rest) :
    Tells language lines entries := by
  intro rest
  rw [cut, means]

theorem lineTokens_append (xs ys : List String) :
    lineTokens language (xs ++ ys) = lineTokens language xs ++ lineTokens language ys :=
  List.flatMap_append

theorem lineTokens_cons (line : String) (lines : List String) :
    lineTokens language (line :: lines) = lineTokens language [line] ++ lineTokens language lines :=
  lineTokens_append [line] lines

theorem lineTokens_singleton (line : String) :
    lineTokens language [line] = tokens language line.toList :=
  List.flatMap_singleton ..

theorem tells_declared {start name rest : String}
    (cut : ∀ text, tokens language (start.toList ++ text) =
      (word? text).elim [] fun read => [.entry (.name (.ofList read.1))])
    (named : IsIdentifier name) (ends : EndsWord rest.toList) :
    Tells language [start ++ name ++ rest] [.name name] := by
  have told : lineTokens language [start ++ name ++ rest] = [.entry (.name name)] := by
    rw [lineTokens_singleton, String.toList_append, String.toList_append, List.append_assoc, cut,
      word?_identifier named ends, Option.elim_some, String.ofList_toList]
  exact tells_of_tokens told fun _ => rfl

/-- A text tells what is said by the lines that are left of it without its doc comments. -/
theorem Tells.readBack {lines kept : List String} {entries : List Entry}
    (tells : Tells language kept entries) (leaves : Leaves language lines kept) :
    readBack language (Text.unlines lines) = entries := by
  have empty : tokens language [] = [] := by cases language <;> rfl
  have all := tells []
  rw [List.append_nil, entriesFrom, List.append_nil] at all
  rw [Binding.readBack, leaves.contents, List.flatMap_append, List.flatMap_singleton, empty,
    List.append_nil, List.flatMap_map]
  exact all

end Reading

end SchemaBindings.Binding

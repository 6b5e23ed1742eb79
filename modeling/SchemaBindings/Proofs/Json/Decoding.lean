import SchemaBindings.Proofs.Json.Lookup

/-! Pointers that are built up from the whole document. Read by the rules of JSON Pointer (RFC 6901),
each gives back the segments that went into it, so that it stands for one way down and no other. -/

namespace SchemaBindings.Pointer

/-- What is put at the end of a pointer: a segment, several of them, or an index. -/
inductive Move
  | child (segment : String)
  | descend (segments : List String)
  | element (index : Nat)
  deriving DecidableEq, Repr

namespace Move

def apply (p : Pointer) : Move → Pointer
  | child segment => p.child segment
  | descend segments => p.descend segments
  | element index => p.element index

/-- An index is a segment in decimal. -/
def segments : Move → List String
  | child segment => [segment]
  | descend segments => segments
  | element index => [index.repr]

theorem apply_eq_descend (p : Pointer) (move : Move) : move.apply p = p.descend move.segments := by
  cases move with
  | child => rfl
  | descend => rfl
  | element index => exact element_eq_child p index

end Move

/-- The pointer that is built from the whole document in these moves. -/
def build (moves : List Move) : Pointer := moves.foldl Move.apply root

theorem foldl_apply (p : Pointer) (moves : List Move) :
    moves.foldl Move.apply p = p.descend (moves.flatMap Move.segments) := by
  induction moves generalizing p with
  | nil => rfl
  | cons move rest ih =>
    rw [List.foldl_cons, ih, Move.apply_eq_descend, List.flatMap_cons, descend_append]

/-- Cuts a pointer at the slashes behind the first one. In each piece the escapes of slashes are
undone and then those of tildes. -/
def decode? (p : Pointer) : Option (List String) :=
  match p.text.toList with
  | [] => some []
  | '/' :: rest =>
    some ((Text.splitAtEach (· == '/') rest).map fun piece =>
      String.ofList (undo '0' '~' (undo '1' '/' piece)))
  | _ => none

theorem ofList_undo_escape (segment : String) :
    String.ofList (undo '0' '~' (undo '1' '/' (escape segment).toList)) = segment := by
  rw [← unescape_eq_undo, toList_escape, unescape_flatMap_escapeChar, String.ofList_toList]

theorem decode?_descend (way : List String) : (root.descend way).decode? = some way := by
  unfold decode?
  rw [toList_descend_root]
  cases way with
  | nil => rfl
  | cons first rest =>
    have cut := splitAtEach_escaped (escape first).toList (slash_not_mem_escape first) rest
    simp only [List.flatMap_cons, List.cons_append, cut, List.map_cons, List.map_map,
      Function.comp_def, ofList_undo_escape, List.map_id']

/-- A pointer decodes to the segments that it was built from. So two pointers are the same just when
their segments are, and a way down can be cut in two anywhere. -/
theorem decode?_build :
    (∀ moves, (build moves).decode? = some (moves.flatMap Move.segments)) ∧
    (∀ moves others, build moves = build others ↔
      moves.flatMap Move.segments = others.flatMap Move.segments) ∧
    ∀ (p : Pointer) (xs ys : List String), p.descend (xs ++ ys) = (p.descend xs).descend ys := by
  refine ⟨fun moves => ?_, fun moves others => ?_, descend_append⟩
  · rw [build, foldl_apply, decode?_descend]
  · rw [build, foldl_apply, build, foldl_apply, descend_root_inj]

example : decode? ⟨"/a~1b/~01//12"⟩ = some ["a/b", "~1", "", "12"] := by decide

end SchemaBindings.Pointer

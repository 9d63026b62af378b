import TypedClient.Proofs.TypeExpr.Undocumented
import TypedClient.TypeExpr.Text
/-!
# Comments in the text of types

A text that is laid out is made of pieces, and each piece is code or a
documentation comment. `TypeExpr.piecesAt` gives the pieces of a type's
text: written one after another they are the text (`written_piecesAt`), and
without the comments they are the pieces of the type without documentation
(`uncommented_piecesAt`).
-/

namespace TypedClient

/-- A piece of a text: code, or the documentation comment for a text at a
depth. -/
inductive Piece where
  | code (text : String)
  | comment (text : String) (depth : Nat)

namespace Piece

/-- What is written for a piece. -/
def text : Piece → String
  | .code text => text
  | .comment text depth => Text.comment text depth

/-- Whether a piece is code. -/
def isCode : Piece → Bool
  | .code _ => true
  | .comment _ _ => false

/-- The text of pieces, one after another. -/
def written (pieces : List Piece) : String := Text.concat (pieces.map text)

/-- The pieces that are code. -/
def uncommented (pieces : List Piece) : List Piece := pieces.filter isCode

/-- The comment for a description, if there is one. -/
def ofDescription (description : Option String) (depth : Nat) : List Piece :=
  (description.map fun text => comment text depth).toList

/-- Pieces with code between them. -/
def join (sep : String) : List (List Piece) → List Piece
  | [] => []
  | [pieces] => pieces
  | pieces :: more :: rest => pieces ++ .code sep :: join sep (more :: rest)

/-- Pieces in parentheses, if they are asked for. -/
def grouped (parentheses : Bool) (pieces : List Piece) : List Piece :=
  if parentheses then .code "(" :: (pieces ++ [.code ")"]) else pieces

variable {pieces more : List Piece}

@[simp] theorem written_nil : written [] = "" := rfl

@[simp] theorem written_code_cons (text : String) :
    written (.code text :: pieces) = text ++ written pieces := rfl

@[simp] theorem written_append : written (pieces ++ more) = written pieces ++ written more := by
  induction pieces with
  | nil => simp [written, Text.concat]
  | cons piece rest ih =>
    have hcons : ∀ others, written (piece :: others) = piece.text ++ written others :=
      fun _ => rfl
    rw [List.cons_append, hcons, hcons, ih, String.append_assoc]

theorem written_ofDescription (description : Option String) (depth : Nat) :
    written (ofDescription description depth) =
      match description with
      | some text => Text.comment text depth
      | none => "" := by
  cases description with
  | none => rfl
  | some text => simp [ofDescription, written, Text.concat, Piece.text]

theorem written_join (sep : String) (parts : List (List Piece)) :
    written (join sep parts) = Text.join sep (parts.map written) := by
  induction parts with
  | nil => rfl
  | cons first rest ih =>
    cases rest with
    | nil => rfl
    | cons second rest =>
      rw [join, written_append, written_code_cons, ih, ← String.append_assoc]
      rfl

theorem written_grouped (parentheses : Bool) :
    written (grouped parentheses pieces) = TypeExpr.grouped parentheses (written pieces) := by
  cases parentheses with
  | false => rfl
  | true => simp [grouped, TypeExpr.grouped, String.append_assoc]

@[simp] theorem uncommented_nil : uncommented [] = [] := rfl

@[simp] theorem uncommented_code_cons (text : String) :
    uncommented (.code text :: pieces) = .code text :: uncommented pieces := rfl

@[simp] theorem uncommented_append :
    uncommented (pieces ++ more) = uncommented pieces ++ uncommented more :=
  List.filter_append ..

@[simp] theorem uncommented_ofDescription (description : Option String) (depth : Nat) :
    uncommented (ofDescription description depth) = [] := by
  cases description <;> rfl

theorem uncommented_join (sep : String) (parts : List (List Piece)) :
    uncommented (join sep parts) = join sep (parts.map uncommented) := by
  induction parts with
  | nil => rfl
  | cons first rest ih =>
    cases rest with
    | nil => rfl
    | cons second rest =>
      rw [join, uncommented_append, uncommented_code_cons, ih]
      rfl

theorem uncommented_grouped (parentheses : Bool) :
    uncommented (grouped parentheses pieces) = grouped parentheses (uncommented pieces) := by
  cases parentheses with
  | false => rfl
  | true => simp [grouped]

end Piece

namespace TypeExpr

open Piece (written uncommented)

/-- The pieces before the type of a field. -/
def headPieces (depth : Nat) (label : FieldLabel) : List Piece :=
  Piece.ofDescription label.description depth ++ [.code (fieldHead depth label.undocumented)]

mutual

/-- The pieces of the text of a type at a depth. -/
def piecesAt (depth : Nat) : TypeExpr → List Piece
  | .keyword word => [.code word.text]
  | .literal text => [.code text]
  | .ref name => [.code name]
  | .array element =>
    if element.isWord then piecesAt depth element ++ [.code "[]"]
    else .code "Array<" :: (piecesAt depth element ++ [.code ">"])
  | .union members =>
    if members.isEmpty then [.code "never"]
    else Piece.join " | " (memberPieces depth isIntersection members)
  | .intersection members =>
    if members.isEmpty then [.code "unknown"]
    else Piece.join " & " (memberPieces depth isUnion members)
  | .record fields =>
    if fields.isEmpty then [.code "\x7b\x7d"]
    else .code "\x7b\n" ::
      (fieldPieces (depth + 1) fields ++ [.code (Text.indentation depth ++ "\x7d")])
termination_by structural type => type

/-- The pieces of members, in parentheses where they are needed. -/
def memberPieces (depth : Nat) (needs : TypeExpr → Bool) : List TypeExpr → List (List Piece)
  | [] => []
  | member :: rest =>
    Piece.grouped (needs member) (piecesAt depth member) :: memberPieces depth needs rest
termination_by structural members => members

/-- The pieces of fields. -/
def fieldPieces (depth : Nat) : List (FieldLabel × TypeExpr) → List Piece
  | [] => []
  | (label, type) :: rest =>
    headPieces depth label ++ (piecesAt depth type ++ .code ";\n" :: fieldPieces depth rest)
termination_by structural fields => fields

end

variable {depth : Nat} {label : FieldLabel} {needs : TypeExpr → Bool} {members : List TypeExpr}
variable {fields : List (FieldLabel × TypeExpr)}

/-! ## The pieces make up the text -/

theorem written_headPieces : written (headPieces depth label) = fieldHead depth label := by
  obtain ⟨name, required, readOnly, description⟩ := label
  rw [headPieces, Piece.written_append, Piece.written_ofDescription]
  simp only [fieldHead, FieldLabel.undocumented, Piece.written_code_cons, Piece.written_nil,
    String.append_assoc, String.append_empty]
  cases description with
  | none =>
    rw [String.empty_append, String.empty_append]
    rfl
  | some text =>
    rw [String.empty_append]
    rfl

theorem written_memberPieces
    (h : ∀ m ∈ members, ∀ depth, written (piecesAt depth m) = textAt depth m) :
    (memberPieces depth needs members).map written = textsAt depth needs members := by
  induction members with
  | nil => rfl
  | cons m rest ih =>
    rw [memberPieces, textsAt, List.map_cons, Piece.written_grouped, h m List.mem_cons_self,
      ih fun m hm => h m (List.mem_cons_of_mem _ hm)]

theorem written_fieldPieces
    (h : ∀ f ∈ fields, ∀ depth, written (piecesAt depth f.2) = textAt depth f.2) :
    written (fieldPieces depth fields) = fieldLines depth fields := by
  induction fields with
  | nil => rfl
  | cons f rest ih =>
    obtain ⟨label, type⟩ := f
    have hfirst := h (label, type) List.mem_cons_self depth
    have hrest := ih fun f hf => h f (List.mem_cons_of_mem _ hf)
    rw [fieldPieces, fieldLines, Piece.written_append, written_headPieces, Piece.written_append,
      Piece.written_code_cons, hfirst, hrest]
    simp only [String.append_assoc]

/-- **The pieces of a type make up its text.** -/
theorem written_piecesAt (depth : Nat) (type : TypeExpr) :
    written (piecesAt depth type) = textAt depth type := by
  induction type using induction generalizing depth with
  | keyword word => simp [piecesAt, textAt]
  | literal text => simp [piecesAt, textAt]
  | ref name => simp [piecesAt, textAt]
  | array element ih =>
    rw [piecesAt, textAt]
    split
    · simp [ih]
    · simp [ih, String.append_assoc]
  | union members ih =>
    rw [piecesAt, textAt]
    split
    · simp
    · rw [Piece.written_join, written_memberPieces fun m hm depth => ih m hm depth]
  | intersection members ih =>
    rw [piecesAt, textAt]
    split
    · simp
    · rw [Piece.written_join, written_memberPieces fun m hm depth => ih m hm depth]
  | record fields ih =>
    rw [piecesAt, textAt]
    split
    · simp
    · rw [Piece.written_code_cons, Piece.written_append,
        written_fieldPieces fun f hf depth => ih f hf depth]
      simp [String.append_assoc]

/-! ## The pieces without comments -/

theorem uncommented_headPieces :
    uncommented (headPieces depth label) = headPieces depth label.undocumented := by
  rw [headPieces, Piece.uncommented_append, Piece.uncommented_ofDescription]
  rfl

theorem uncommented_memberPieces (hneeds : ∀ m, needs m.undocumented = needs m)
    (h : ∀ m ∈ members, ∀ depth, uncommented (piecesAt depth m) = piecesAt depth m.undocumented) :
    (memberPieces depth needs members).map uncommented =
      memberPieces depth needs (members.map undocumented) := by
  induction members with
  | nil => rfl
  | cons m rest ih =>
    rw [List.map_cons, memberPieces, memberPieces, List.map_cons, Piece.uncommented_grouped,
      h m List.mem_cons_self, hneeds, ih fun m hm => h m (List.mem_cons_of_mem _ hm)]

theorem uncommented_fieldPieces
    (h : ∀ f ∈ fields, ∀ depth,
      uncommented (piecesAt depth f.2) = piecesAt depth f.2.undocumented) :
    uncommented (fieldPieces depth fields) =
      fieldPieces depth (fields.map fun f => (f.1.undocumented, f.2.undocumented)) := by
  induction fields with
  | nil => rfl
  | cons f rest ih =>
    obtain ⟨label, type⟩ := f
    have hfirst := h (label, type) List.mem_cons_self depth
    have hrest := ih fun f hf => h f (List.mem_cons_of_mem _ hf)
    rw [List.map_cons, fieldPieces, fieldPieces, Piece.uncommented_append,
      uncommented_headPieces, Piece.uncommented_append, Piece.uncommented_code_cons, hfirst, hrest]

/-- **Without comments they are the pieces of the type without
documentation.** -/
theorem uncommented_piecesAt (depth : Nat) (type : TypeExpr) :
    uncommented (piecesAt depth type) = piecesAt depth type.undocumented := by
  induction type using induction generalizing depth with
  | keyword word => rfl
  | literal text => rfl
  | ref name => rfl
  | array element ih =>
    rw [undocumented_array, piecesAt, piecesAt, isWord_undocumented]
    split
    · simp [ih]
    · simp [ih]
  | union members ih =>
    rw [undocumented_union, piecesAt, piecesAt, List.isEmpty_map]
    split
    · rfl
    · rw [Piece.uncommented_join,
        uncommented_memberPieces (fun _ => isIntersection_undocumented) ih]
  | intersection members ih =>
    rw [undocumented_intersection, piecesAt, piecesAt, List.isEmpty_map]
    split
    · rfl
    · rw [Piece.uncommented_join, uncommented_memberPieces (fun _ => isUnion_undocumented) ih]
  | record fields ih =>
    rw [undocumented_record, piecesAt, piecesAt, List.isEmpty_map]
    split
    · rfl
    · rw [Piece.uncommented_code_cons, Piece.uncommented_append, uncommented_fieldPieces ih]
      rfl

end TypeExpr

end TypedClient

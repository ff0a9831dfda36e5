import DocumentReplication.Json.Reading
import DocumentReplication.Proofs.Json.Text

/-!
What was written as a document is read back field by field: the members of a record are found under
their names, and texts and numbers are what they were.
-/

namespace DocumentReplication.Json

open Piece (toString?_ofString)

theorem mapM_map_eq_some {α β : Type} {write : α → β} {read : β → Option α} {values : List α}
    (back : ∀ value ∈ values, read (write value) = some value) :
    (values.map write).mapM read = some values := by
  induction values with
  | nil => rfl
  | cons first rest ih =>
      have others := ih fun value member => back value (List.mem_cons_of_mem _ member)
      simp [back first List.mem_cons_self, others]

theorem gather_members {names : List String} (members found : List (String × Json))
    (known : ∀ member ∈ members, member.1 ∈ names)
    (distinct : ((members ++ found).map (·.1)).Nodup) :
    gather names found (members.map fun (name, value) => (Piece.ofString name, value)) =
      some (members.reverse ++ found) := by
  induction members generalizing found with
  | nil => rfl
  | cons first rest ih =>
      obtain ⟨name, value⟩ := first
      have asked : names.contains name = true := by
        simpa using known (name, value) List.mem_cons_self
      have absent : found.any (·.1 == name) = false := by
        simp only [List.cons_append, List.map_cons, List.nodup_cons, List.map_append,
          List.mem_append, not_or] at distinct
        rw [List.any_eq_false]
        intro member present same
        exact distinct.1.2 (List.mem_map.mpr ⟨member, present, by simpa using same⟩)
      have others := ih ((name, value) :: found)
        (fun member present => known member (List.mem_cons_of_mem _ present))
        ((List.perm_middle.map _).nodup_iff.mpr distinct)
      simp only [List.map_cons, gather, toString?_ofString, Option.bind_eq_bind, Option.bind_some,
        asked, absent, if_true, Bool.false_eq_true, if_false, others, List.reverse_cons,
        List.append_assoc, List.singleton_append]

theorem lookup_of_mem {members : List (String × Json)} {name : String} {value : Json}
    (distinct : (members.map (·.1)).Nodup) (member : (name, value) ∈ members) :
    members.lookup name = some value := by
  induction members with
  | nil => contradiction
  | cons first rest ih =>
      simp only [List.map_cons, List.nodup_cons] at distinct
      rcases List.mem_cons.mp member with rfl | later
      · simp
      · have apart : name ≠ first.1 := fun same =>
          distinct.1 (same ▸ List.mem_map_of_mem later)
        rw [List.lookup_cons, beq_false_of_ne apart]
        exact ih distinct.2 later

/-- The fields of a record are its members, as far as it has them. -/
theorem toFields?_ofMembers {fields : List FieldName} (names : List String)
    {members : List (String × Json)} (named : members.map (·.1) = names)
    (known : names ⊆ fields.map (·.name)) (distinct : names.Nodup) :
    (ofMembers members).toFields? fields =
      some (fields.map fun field => members.reverse.lookup field.name) := by
  subst named
  have gathered := gather_members members []
    (fun member present => known (List.mem_map_of_mem present)) (by simpa using distinct)
  rw [List.append_nil] at gathered
  simp only [ofMembers, toFields?, gathered, Option.bind_eq_bind, Option.bind_some, Option.pure_def]

@[simp] theorem toString?_ofText (value : String) : (ofString value).toString? = some value :=
  toString?_ofString value

@[simp] theorem toSigned64?_integer (value : Int64) :
    (integer value.toInt).toSigned64? = some value := by
  have lower := value.le_toInt
  have upper := value.toInt_lt
  simp only [toSigned64?, toIntBetween?, toInt?, Option.bind_eq_bind, Option.bind_some]
  rw [if_pos ⟨by omega, by omega⟩, Option.map_some, Int64.ofInt_toInt]

theorem toNatBelow?_integer {bound number : Nat} (below : number < bound) :
    (integer number).toNatBelow? bound = some number := by
  simp only [toNatBelow?, toIntBetween?, toInt?, Option.bind_eq_bind, Option.bind_some]
  rw [if_pos ⟨by omega, by omega⟩]
  rfl

@[simp] theorem optional_toString?_ofString (value : String) :
    optional toString? (some (.ofString value)) = some (some value) := by
  have back := toString?_ofText value
  rw [ofString] at back ⊢
  simp only [optional, nullable, back, Option.map_some]

@[simp] theorem optional_none {α : Type} (read : Json → Option α) :
    optional read none = some none := rfl

@[simp] theorem optional_toSigned64?_integer (value : Int64) :
    optional toSigned64? (some (.integer value.toInt)) = some (some value) := by
  simp only [optional, nullable, toSigned64?_integer, Option.map_some]

/-- A text that may be missing is read back, whether it is there or not. -/
theorem optional_toString?_map (value : Option String) :
    optional toString? (value.map ofString) = some value := by
  cases value with
  | none => rfl
  | some text => exact optional_toString?_ofString text

theorem toVariant?_ofString (name : String) :
    (ofString name).toVariant? = some (name, none) := by
  rw [ofString, toVariant?, toString?_ofString, Option.map_some]

theorem toVariant?_ofMembers (name : String) (content : Json) :
    (ofMembers [(name, content)]).toVariant? = some (name, some content) := by
  simp [ofMembers, toVariant?, toString?_ofString]

end DocumentReplication.Json

import Mathlib.Data.Rat.Defs
import Mathlib.Data.List.Forall2
import Mathlib.Tactic.Common

/-! JSON documents and the part of JSON Schema that types, bounds and requires members: every schema
states the type of its instances. Independent of any program. -/
namespace AssetTracker.Lib

/-- A number is what its digits denote. A `token` is a bare word that some encoders write for values
JSON has no number for; it has no type. -/
inductive Json where
  | null
  | num (value : ℚ)
  | token (text : String)
  | str (text : String)
  | arr (items : List Json)
  | obj (members : List (String × Json))

inductive Schema where
  | string
  | number (minimum maximum : Option ℚ)
  | array (items : Schema)
  | object (properties : List (String × Schema)) (required : List String)

namespace Schema

mutual

/-- Validation. A property constrains its member only when the member is there. -/
def accepts : Schema → Json → Bool
  | .string, .str _ => true
  | .number minimum maximum, .num value =>
    minimum.all (fun m => m ≤ value) && maximum.all fun m => value ≤ m
  | .array items, .arr l => l.all fun item => items.accepts item
  | .object properties required, .obj members =>
    required.all (fun name => (members.lookup name).isSome) && acceptsMembers properties members
  | _, _ => false

def acceptsMembers : List (String × Schema) → List (String × Json) → Bool
  | [], _ => true
  | (name, schema) :: properties, members =>
    (match members.lookup name with
      | none => true
      | some member => schema.accepts member) && acceptsMembers properties members

end

mutual

/-- Two documents have the same members and values wherever the schema says something. -/
def Agree : Schema → Json → Json → Prop
  | .array items, .arr l, .arr l' => List.Forall₂ (fun j j' => items.Agree j j') l l'
  | .object properties _, .obj members, .obj members' => AgreeMembers properties members members'
  | _, j, j' => j = j'

def AgreeMembers : List (String × Schema) → List (String × Json) → List (String × Json) → Prop
  | [], _, _ => True
  | (name, schema) :: properties, members, members' =>
    (match members.lookup name, members'.lookup name with
      | none, none => True
      | some member, some member' => schema.Agree member member'
      | _, _ => False) ∧ AgreeMembers properties members members'

end

theorem accepts_object {properties : List (String × Schema)} {required : List String}
    {members : List (String × Json)}
    (h : (object properties required).accepts (.obj members) = true) (name : String)
    (hname : name ∈ required) : ∃ member, members.lookup name = some member := by
  rw [accepts, Bool.and_eq_true, List.all_eq_true] at h
  exact Option.isSome_iff_exists.mp (h.1 name hname)

theorem agreeMembers_lookup {properties : List (String × Schema)}
    {members members' : List (String × Json)} (h : AgreeMembers properties members members')
    (name : String) (schema : Schema) (hname : (name, schema) ∈ properties) :
    (members.lookup name).isSome = (members'.lookup name).isSome := by
  induction properties with
  | nil => simp at hname
  | cons property properties ih =>
    obtain ⟨first, firstSchema⟩ := property
    rw [AgreeMembers] at h
    cases List.mem_cons.mp hname with
    | inl heq =>
      cases heq
      have hfirst := h.1
      cases hl : members.lookup name <;> cases hl' : members'.lookup name <;>
        simp_all
    | inr hrest => exact ih h.2 hrest

end Schema
end AssetTracker.Lib

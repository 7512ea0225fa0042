import NatProxy.Lib.JsonReader
import Mathlib.Data.List.Nodup
import Mathlib.Logic.Function.Basic

/-!
# Structures as JSON objects

A structure whose fields are strings, integers and booleans, with the name of each field in JSON and
whether an empty value is left out, is a `Schema`; its values are dependent functions of the field.
`marshal` writes them and `unmarshal` sets the fields that a text names, as `encoding/json` does: a
name is looked for as it is and then regardless of case, `null` leaves the field alone, and what has
no field is skipped.

`unmarshal_marshal`: a structure that was written is read back into an empty one.
-/

namespace NatProxy.Lib.Json

open List

/-! ## Fields -/

inductive Kind where
  | string
  | int
  | bool
deriving DecidableEq, Repr

namespace Kind

abbrev Val : Kind → Type
  | .string => String
  | .int => Int
  | .bool => Bool

instance : (k : Kind) → DecidableEq k.Val
  | .string => inferInstanceAs (DecidableEq String)
  | .int => inferInstanceAs (DecidableEq Int)
  | .bool => inferInstanceAs (DecidableEq Bool)

def zero : (k : Kind) → k.Val
  | .string => ""
  | .int => (0 : Int)
  | .bool => false

def toScalar : (k : Kind) → k.Val → Scalar
  | .string, s => .str s.toList
  | .int, i => .num (printInt i)
  | .bool, b => .bool b

/-- What a value sets a field of this kind to, if it can. -/
def assign : (k : Kind) → Value → Option (Option k.Val)
  | _, .null => some none
  | .string, .scalar (.str s) => some (some (String.ofList s))
  | .int, .scalar (.num literal) => (parseInt literal).map some
  | .bool, .scalar (.bool b) => some (some b)
  | _, _ => none

theorem wf_toScalar (k : Kind) (v : k.Val) : (k.toScalar v).Wf := by
  cases k with
  | string | bool => trivial
  | int => exact wf_printInt v

theorem assign_toScalar (k : Kind) (v : k.Val) :
    k.assign (.scalar (k.toScalar v)) = some (some v) := by
  cases k with
  | string => simp [toScalar, assign]
  | int => simp [toScalar, assign, parseInt_printInt]
  | bool => rfl

end Kind

structure Schema where
  Field : Type
  decEq : DecidableEq Field
  fields : List Field
  name : Field → String
  kind : Field → Kind
  omitempty : Field → Bool
  mem_fields : ∀ f, f ∈ fields
  nodup_names : (fields.map name).Nodup

namespace Schema

variable (σ : Schema)

instance : DecidableEq σ.Field := σ.decEq

abbrev Record := (f : σ.Field) → (σ.kind f).Val

def zero : σ.Record := fun f => (σ.kind f).zero

/-! ## Writing and reading -/

/-- A field that is written: not one that is left out because it is empty. -/
def writes (r : σ.Record) (f : σ.Field) : Bool :=
  !(σ.omitempty f && decide (r f = (σ.kind f).zero))

def members (r : σ.Record) (fs : List σ.Field) : List (List Char × Scalar) :=
  fs.map fun f => ((σ.name f).toList, (σ.kind f).toScalar (r f))

def marshal (r : σ.Record) : List Char :=
  printObject (σ.members r (σ.fields.filter (σ.writes r)))

/-- The field that a name stands for. -/
def fieldOf (k : List Char) : Option σ.Field :=
  match σ.fields.find? fun f => (σ.name f).toList = k with
  | some f => some f
  | none => σ.fields.find? fun f => (σ.name f).toList.map Char.toLower = k.map Char.toLower

def assignMember (r : σ.Record) (m : List Char × Value) : Option σ.Record :=
  match σ.fieldOf m.1 with
  | none => some r
  | some f =>
    match (σ.kind f).assign m.2 with
    | none => none
    | some none => some r
    | some (some v) => some (Function.update r f v)

def assignMembers (r : σ.Record) : List (List Char × Value) → Option σ.Record
  | [] => some r
  | m :: ms => (σ.assignMember r m).bind fun r => assignMembers r ms

def unmarshal (r : σ.Record) (text : List Char) : Option σ.Record :=
  match parse text with
  | some (.obj ms) => σ.assignMembers r ms
  | some .null => some r
  | _ => none

/-! ## The round trip -/

theorem name_inj {f g : σ.Field} (h : σ.name f = σ.name g) : f = g :=
  inj_on_of_nodup_map σ.nodup_names (σ.mem_fields f) (σ.mem_fields g) h

theorem fieldOf_name (f : σ.Field) : σ.fieldOf (σ.name f).toList = some f := by
  have hfound : σ.fields.find? (fun g => (σ.name g).toList = (σ.name f).toList) = some f := by
    cases hfind : σ.fields.find? fun g => (σ.name g).toList = (σ.name f).toList with
    | none => exact absurd (find?_eq_none.mp hfind f (σ.mem_fields f)) (by simp)
    | some g =>
      have hg := find?_some hfind
      rw [decide_eq_true_eq, String.toList_inj] at hg
      rw [σ.name_inj hg]
  simp only [fieldOf, hfound]

theorem assignMember_member (s r : σ.Record) (f : σ.Field) :
    σ.assignMember s ((σ.name f).toList, .scalar ((σ.kind f).toScalar (r f))) =
      some (Function.update s f (r f)) := by
  simp only [assignMember, fieldOf_name, Kind.assign_toScalar]

theorem assignMembers_members (r : σ.Record) (fs : List σ.Field) (s : σ.Record) :
    σ.assignMembers s (values (σ.members r fs)) = some fun f => if f ∈ fs then r f else s f := by
  induction fs generalizing s with
  | nil => simp [members, values, assignMembers]
  | cons f fs ih =>
    have hfirst := σ.assignMember_member s r f
    simp only [members, values, map_cons, assignMembers, hfirst, Option.bind_some] at ih ⊢
    rw [ih]
    refine congrArg some (funext fun g => ?_)
    by_cases hgf : g = f
    · subst hgf
      simp
    · simp [hgf]

theorem wf_members (r : σ.Record) (fs : List σ.Field) : ∀ m ∈ σ.members r fs, m.2.Wf := by
  intro m hm
  obtain ⟨f, -, rfl⟩ := mem_map.mp hm
  exact Kind.wf_toScalar _ _

theorem parse_marshal (r : σ.Record) :
    parse (σ.marshal r) = some (.obj (values (σ.members r (σ.fields.filter (σ.writes r))))) :=
  parse_printObject (σ.wf_members r _)

theorem find?_members (r : σ.Record) {fs : List σ.Field} {f : σ.Field} (hf : f ∈ fs) :
    (values (σ.members r fs)).reverse.find? (fun m => m.1 = (σ.name f).toList) =
      some ((σ.name f).toList, .scalar ((σ.kind f).toScalar (r f))) := by
  have hmem : ∀ m, m ∈ (values (σ.members r fs)).reverse ↔
      ∃ g ∈ fs, ((σ.name g).toList, Value.scalar ((σ.kind g).toScalar (r g))) = m := by
    intro m
    simp [values, members]
  cases hfind : (values (σ.members r fs)).reverse.find? fun m => m.1 = (σ.name f).toList with
  | none =>
    have hnone := find?_eq_none.mp hfind _ ((hmem _).mpr ⟨f, hf, rfl⟩)
    exact absurd hnone (by simp)
  | some m =>
    obtain ⟨g, -, rfl⟩ := (hmem m).mp (mem_of_find?_eq_some hfind)
    have hname := find?_some hfind
    rw [decide_eq_true_eq, String.toList_inj] at hname
    rw [σ.name_inj hname]

/-- **A structure that was written is read back.** -/
theorem unmarshal_marshal (r : σ.Record) : σ.unmarshal σ.zero (σ.marshal r) = some r := by
  rw [unmarshal, parse_marshal]
  simp only [assignMembers_members]
  refine congrArg some (funext fun f => ?_)
  split_ifs with hf
  · rfl
  · -- a field that was left out was empty
    have hempty : σ.writes r f = false := by
      rw [← Bool.not_eq_true]
      exact fun h => hf (mem_filter.mpr ⟨σ.mem_fields f, h⟩)
    simp [writes] at hempty
    exact hempty.2.symm

/-! ## Reading without regard to errors -/

/-- `unmarshal` when its error is ignored: what does not fit is skipped, and what is no JSON sets
nothing. -/
def fill (r : σ.Record) (text : List Char) : σ.Record :=
  match parse text with
  | some (.obj ms) => ms.foldl (fun r m => (σ.assignMember r m).getD r) r
  | _ => r

end Schema

end NatProxy.Lib.Json

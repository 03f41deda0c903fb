/-
# HiddenLoads.Bindings -- what names are bound to

A finite map from names, kept as a list of entries.  The view of it is `Bindings.get?`: binding
a name changes what that name gives and nothing else (`get?_bind`), and so does forgetting one
(`get?_forget`).
-/
import HiddenLoads.Text

namespace HiddenLoads

set_option autoImplicit false

/-- A finite map from names. -/
structure Bindings (α : Type) where
  entries : List (Text × α)
deriving Repr

namespace Bindings

variable {α : Type}

def empty : Bindings α := ⟨[]⟩

def get? (b : Bindings α) (name : Text) : Option α := b.entries.lookup name

def forget (b : Bindings α) (name : Text) : Bindings α :=
  ⟨b.entries.filter fun entry => entry.1 ≠ name⟩

def bind (b : Bindings α) (name : Text) (value : α) : Bindings α :=
  ⟨(name, value) :: (b.forget name).entries⟩

def binds (b : Bindings α) (name : Text) : Bool := (b.get? name).isSome

/-- The entries in the order of their names. -/
def sorted (b : Bindings α) : List (Text × α) :=
  b.entries.mergeSort fun a b => a.1.le b.1

@[simp] theorem get?_empty (name : Text) : (empty : Bindings α).get? name = none := rfl

/-- Forgetting a name unbinds it and nothing else. -/
theorem get?_forget (b : Bindings α) (name other : Text) :
    (b.forget name).get? other = if other = name then none else b.get? other := by
  simp only [get?, forget]
  induction b.entries with
  | nil => simp
  | cons entry rest ih =>
    obtain ⟨key, value⟩ := entry
    by_cases same : key = name
    · subst same
      by_cases here : other = key
      · subst here; simpa using ih
      · have apart : (other == key) = false := by simp [here]
        simp [List.lookup_cons, apart, here] at ih ⊢
        simpa using ih
    · by_cases here : other = key
      · subst here
        simp [same]
      · have apart : (other == key) = false := by simp [here]
        simp [List.lookup_cons, same, apart] at ih ⊢
        simpa using ih

/-- Binding a name changes what it gives and nothing else. -/
theorem get?_bind (b : Bindings α) (name other : Text) (value : α) :
    (b.bind name value).get? other = if other = name then some value else b.get? other := by
  by_cases here : other = name
  · subst here; simp [bind, get?]
  · have rest := get?_forget b name other
    have apart : (other == name) = false := by simp [here]
    simp only [here, if_false, get?] at rest ⊢
    simp only [bind, List.lookup_cons, apart]
    exact rest

end Bindings

end HiddenLoads

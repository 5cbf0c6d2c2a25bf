import ObjcOutline.Text.Basic

/-!
# Registries

A registry keeps named entries in the order in which they were registered. A name finds the first
entry that has it, so registering a name again changes nothing for those who look it up.
-/
namespace ObjcOutline

/-- Things with a name. -/
class Named (α : Type) where
  name : α → Text

structure Registry (α : Type) where
  entries : List α := []

namespace Registry

variable {α : Type} [Named α]

def register (r : Registry α) (entry : α) : Registry α := ⟨r.entries ++ [entry]⟩

def get? (r : Registry α) (name : Text) : Option α :=
  r.entries.find? (Named.name · == name)

/-- The first entry with the given name, or else the first entry of all. -/
def select? (r : Registry α) (name : Text) : Option α :=
  (r.get? name).or r.entries.head?

theorem get?_register (r : Registry α) (entry : α) (name : Text) :
    (r.register entry).get? name =
      (r.get? name).or (if Named.name entry = name then some entry else none) := by
  simp only [get?, register, List.find?_append, List.find?_singleton, beq_iff_eq]

end Registry

end ObjcOutline

import Mathlib.Logic.Relation
import SolidTrace.Document.Basic

/-!
Which arrays of a library are copied in which.

The copies in an array are the arrows of a graph between names of the library, drawn through the
arrays that are written inside of it. A document is recursive when the root leads to a name that
leads back to itself.
-/

namespace SolidTrace

variable {S : Type}

namespace Part

mutual

/-- The names that are copied in a part, also in what is written inside of it. -/
def copies : Part S → List String
  | .copy _ name => [name]
  | .assembly _ content _ => copiesAll content
  | .camera _ _ | .light _ _ | .surface _ _ => []

def copiesAll : List (Part S) → List String
  | [] => []
  | p :: ps => p.copies ++ copiesAll ps

end

end Part

def Assembly.copies (a : Assembly S) : List String := Part.copiesAll a.parts

namespace Document

variable (d : Document S)

/-- A library array has a copy of another one in it. -/
def Copies (name inner : String) : Prop :=
  ∃ content, d.library.get? name = some content ∧ inner ∈ content.copies

/-- The root leads to the name, from copy to copy. -/
def Leads (name : String) : Prop :=
  ∃ first ∈ d.root.copies, Relation.ReflTransGen d.Copies first name

/-- The root leads to the name, and the name leads back to itself. -/
def Turns (name : String) : Prop := d.Leads name ∧ Relation.TransGen d.Copies name name

/-- Some library array that the root leads to leads back to itself. -/
def Recursive : Prop := ∃ name, d.Turns name

variable {d} {name inner : String}

lemma Leads.of_mem (h : name ∈ d.root.copies) : d.Leads name := ⟨name, h, .refl⟩

lemma Leads.copies (h : d.Leads name) (hc : d.Copies name inner) : d.Leads inner := by
  obtain ⟨first, hfirst, hpath⟩ := h
  exact ⟨first, hfirst, hpath.tail hc⟩

end Document

end SolidTrace

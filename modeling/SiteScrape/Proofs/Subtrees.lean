import SiteScrape.Html.Node

/-!
# Elements below an element

The elements below an element are its children, each followed by the elements
below it (`descendants_eq`). A child stands in the place that its number says
(`place_of_child`), and whatever is below a child lies deeper than all children
(`depth_lt_of_descendant`).
-/

namespace SiteScrape.Html

variable {up : Trail} {left right nodes : List Node} {node : Node} {s c e : Spot}

namespace Spot

/-- How many elements are around the element. -/
def depth (s : Spot) : Nat := s.up.frames.length

/-- The place of the element among the elements that its parent has, counting
from one. -/
def place (s : Spot) : Nat := s.before.length + 1

/-! ### Children and what is below them -/

theorem below_eq_flatMap (up : Trail) (left nodes : List Node) :
    below up left nodes = (among up left nodes).flatMap fun c => c :: c.descendants := by
  induction nodes generalizing left with
  | nil => rfl
  | cons n rest ih =>
    cases n with
    | element tag children => simp [below, atAndBelow, among, ih, descendants, frame]
    | text | comment => simp [below, atAndBelow, among, ih]

/-- The elements below an element are its children, each followed by what is
below it. -/
theorem descendants_eq (s : Spot) :
    s.descendants = s.childSpots.flatMap fun c => c :: c.descendants :=
  below_eq_flatMap ..

/-! ### Places among siblings -/

/-- The elements among some nodes. -/
def elementCount (nodes : List Node) : Nat :=
  nodes.countP fun n => match n with
    | .element .. => true
    | _ => false

theorem length_leftwards (up : Trail) (right left : List Node) :
    (leftwards up right left).length = elementCount left := by
  induction left generalizing right with
  | nil => rfl
  | cons n rest ih => cases n <;> simp [leftwards, ih, elementCount]

theorem getElem?_among {i : Nat} (h : (among up left nodes)[i]? = some c) :
    c.up = up ∧ elementCount c.left = elementCount left + i := by
  induction nodes generalizing left i with
  | nil => simp [among] at h
  | cons n rest ih =>
    cases n with
    | text | comment => exact (ih h).imp_right fun h => by simpa [elementCount] using h
    | element tag children =>
      cases i with
      | zero =>
        obtain rfl := Option.some.inj h
        exact ⟨rfl, rfl⟩
      | succ i =>
        refine (ih h).imp_right fun h => ?_
        rw [h]
        simp only [elementCount, List.countP_cons_of_pos]
        omega

/-- A child stands in the place that its number says. -/
theorem place_of_child {i : Nat} (h : s.childSpots[i]? = some c) : c.place = i + 1 := by
  have hleft := (getElem?_among h).2
  unfold place before
  rw [length_leftwards, hleft]
  simp [elementCount]

/-! ### Depths -/

theorem up_of_child (h : c ∈ s.childSpots) : c.up = s.up.down s.frame := by
  obtain ⟨i, hi⟩ := List.mem_iff_getElem?.mp h
  exact (getElem?_among hi).1

theorem depth_of_child (h : c ∈ s.childSpots) : c.depth = s.depth + 1 := by
  unfold depth
  rw [up_of_child h]
  rfl

mutual

theorem le_depth_of_mem_atAndBelow (up : Trail) (left right : List Node) :
    (node : Node) → e ∈ atAndBelow up left right node → up.frames.length ≤ e.depth
  | .text _, h => by simp [atAndBelow] at h
  | .comment _, h => by simp [atAndBelow] at h
  | .element tag children, h => by
    rcases List.mem_cons.mp h with rfl | h
    · exact Nat.le_refl _
    · exact Nat.le_of_succ_le (le_depth_of_mem_below (up.down ⟨tag, left, right⟩) [] children h)

/-- Elements below some nodes lie at least as deep as the nodes. -/
theorem le_depth_of_mem_below (up : Trail) (left : List Node) :
    (nodes : List Node) → e ∈ below up left nodes → up.frames.length ≤ e.depth
  | [], h => by simp [below] at h
  | n :: rest, h => by
    rcases List.mem_append.mp h with h | h
    · exact le_depth_of_mem_atAndBelow up left rest n h
    · exact le_depth_of_mem_below up (n :: left) rest h

end

/-- What is below an element lies deeper. -/
theorem depth_lt_of_descendant (h : e ∈ s.descendants) : s.depth < e.depth :=
  le_depth_of_mem_below (s.up.down s.frame) [] s.children h

end Spot

end SiteScrape.Html

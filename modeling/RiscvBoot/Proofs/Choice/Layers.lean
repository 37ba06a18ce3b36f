import RiscvBoot.Choice

/-!
# Layers of a choice

However a stack of layers is put together, each field of the result is the first text that is given
for it (`Choice.Grouping.merged_eq`). So the layers below the first that gives a field are not seen,
and two stacks that differ only there are seen alike.
-/

set_option autoImplicit false

namespace RiscvBoot.Choice

variable {α : Type}

theorem or_assoc (a b c : Choice) : (a.or b).or c = a.or (b.or c) := by
  simp only [or, Option.or_assoc]

/-- The first text that is given for each field. -/
def firstGiven (layers : List Choice) : Choice := ⟨layers.findSome? arch, layers.findSome? harts⟩

theorem or_firstGiven (c : Choice) (layers : List Choice) :
    c.or (firstGiven layers) = firstGiven (c :: layers) := by
  unfold firstGiven or
  rw [List.findSome?_cons, List.findSome?_cons]
  cases c.arch <;> cases c.harts <;> rfl

theorem or_firstGiven_nil (c : Choice) : c.or (firstGiven []) = c := by
  unfold firstGiven or
  rw [List.findSome?_nil, List.findSome?_nil, Option.or_none, Option.or_none]

theorem firstGiven_append (above below : List Choice) :
    firstGiven (above ++ below) = (firstGiven above).or (firstGiven below) := by
  unfold firstGiven or
  rw [List.findSome?_append, List.findSome?_append]

/-! ## Groupings -/

/-- A way of putting a stack of layers together, two neighbouring groups at a time. -/
inductive Grouping where
  | nothing
  | layer (c : Choice)
  | stack (above below : Grouping)

namespace Grouping

def layers : Grouping → List Choice
  | .nothing => []
  | .layer c => [c]
  | .stack above below => above.layers ++ below.layers

def merged : Grouping → Choice
  | .nothing => {}
  | .layer c => c
  | .stack above below => above.merged.or below.merged

theorem merged_eq (g : Grouping) : g.merged = firstGiven g.layers := by
  induction g with
  | nothing => rfl
  | layer c => rw [layers, ← or_firstGiven, or_firstGiven_nil, merged]
  | stack above below ihabove ihbelow =>
    rw [merged, ihabove, ihbelow]
    exact (firstGiven_append above.layers below.layers).symm

end Grouping

theorem foldl_or (c : Choice) (layers : List Choice) :
    layers.foldl or c = c.or (firstGiven layers) := by
  induction layers generalizing c with
  | nil => exact c.or_firstGiven_nil.symm
  | cons next layers ih =>
    have hnext := ih (c.or next)
    rw [or_assoc, or_firstGiven] at hnext
    exact hnext

theorem ofLayers_eq (layers : List Choice) : ofLayers layers = firstGiven layers := by
  have hlayers := foldl_or {} layers
  unfold ofLayers
  rw [hlayers]
  simp [or]

/-! ## What is seen from the top -/

/-- Two stacks are the same in one field down to the first layer that gives it. -/
inductive SeenAlike (field : Choice → Option α) : List Choice → List Choice → Prop where
  | bottom : SeenAlike field [] []
  | given {c c' : Choice} {x : α} (below below' : List Choice) (h : field c = some x)
      (h' : field c' = some x) : SeenAlike field (c :: below) (c' :: below')
  | passed {c c' : Choice} {below below' : List Choice} (h : field c = none)
      (h' : field c' = none) (rest : SeenAlike field below below') :
      SeenAlike field (c :: below) (c' :: below')

theorem SeenAlike.findSome?_eq {field : Choice → Option α} {layers layers' : List Choice}
    (h : SeenAlike field layers layers') : layers'.findSome? field = layers.findSome? field := by
  induction h with
  | bottom => rfl
  | given below below' h h' => simp only [List.findSome?_cons, h, h']
  | passed h h' rest ih => simp only [List.findSome?_cons, h, h', ih]

theorem SeenAlike.firstGiven_eq {layers layers' : List Choice}
    (harch : SeenAlike arch layers layers')
    (hharts : SeenAlike harts layers layers') : firstGiven layers' = firstGiven layers := by
  unfold firstGiven
  rw [harch.findSome?_eq, hharts.findSome?_eq]

/-- What is below a layer that gives a field is not seen. -/
theorem SeenAlike.of_shadowed {field : Choice → Option α} {above : List Choice}
    (h : ∃ c ∈ above, (field c).isSome) (below below' : List Choice) :
    SeenAlike field (above ++ below) (above ++ below') := by
  obtain ⟨c, hc, hgiven⟩ := h
  induction above with
  | nil => cases hc
  | cons top above ih =>
    cases htop : field top with
    | some x => exact .given _ _ htop htop
    | none =>
      refine .passed htop htop (ih ?_)
      rcases List.mem_cons.1 hc with rfl | hc
      · rw [htop] at hgiven
        cases hgiven
      · exact hc

end RiscvBoot.Choice

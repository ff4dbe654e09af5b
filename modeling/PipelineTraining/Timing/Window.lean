/-!
Which iterations and ranks are timed.
-/

namespace PipelineTraining

structure RankSet where
  ranks : List Nat
  sorted : ranks.Pairwise (· < ·) := by decide

namespace RankSet

def insertSorted (rank : Nat) : List Nat → List Nat
  | [] => [rank]
  | first :: rest =>
      if rank < first then rank :: first :: rest
      else if rank = first then first :: rest
      else first :: insertSorted rank rest

theorem mem_insertSorted {rank other : Nat} {ranks : List Nat}
    (member : other ∈ insertSorted rank ranks) : other = rank ∨ other ∈ ranks := by
  induction ranks with
  | nil => simpa [insertSorted] using member
  | cons first rest ih =>
      unfold insertSorted at member
      split at member
      · simpa using member
      · split at member
        · exact Or.inr member
        · rcases List.mem_cons.mp member with same | inside
          · exact Or.inr (by simp [same])
          · rcases ih inside with same | inRest
            · exact Or.inl same
            · exact Or.inr (by simp [inRest])

theorem insertSorted_sorted {rank : Nat} {ranks : List Nat} (sorted : ranks.Pairwise (· < ·)) :
    (insertSorted rank ranks).Pairwise (· < ·) := by
  induction ranks with
  | nil => simp [insertSorted]
  | cons first rest ih =>
      have below := (List.pairwise_cons.mp sorted).1
      have inner := (List.pairwise_cons.mp sorted).2
      unfold insertSorted
      split
      · rename_i before
        refine List.pairwise_cons.mpr ⟨fun other member => ?_, sorted⟩
        rcases List.mem_cons.mp member with same | inside
        · omega
        · have := below other inside
          omega
      · split
        · exact sorted
        · rename_i notBefore different
          refine List.pairwise_cons.mpr ⟨fun other member => ?_, ih inner⟩
          rcases mem_insertSorted member with same | inside
          · omega
          · exact below other inside

def empty : RankSet := ⟨[], List.Pairwise.nil⟩

def insert (set : RankSet) (rank : Nat) : RankSet :=
  ⟨insertSorted rank set.ranks, insertSorted_sorted set.sorted⟩

def ofList (ranks : List Nat) : RankSet :=
  ranks.foldl insert empty

def contains (set : RankSet) (rank : Nat) : Bool :=
  set.ranks.contains rank

end RankSet

/-- The timed iterations, both ends included, and the timed ranks: all of them unless listed. -/
structure Window where
  first : Nat
  last : Nat
  ranks : Option RankSet

namespace Window

def standard : Window := ⟨100, 110, none⟩

/-- Ends before it starts. -/
def disabled : Window := ⟨1, 0, none⟩

def contains (window : Window) (iteration rank : Nat) : Bool :=
  window.first ≤ iteration && iteration ≤ window.last &&
    match window.ranks with
    | none => true
    | some ranks => ranks.contains rank

end Window
end PipelineTraining

import Mathlib.Data.List.Sort
import PipelineTraining.Proofs.Validation.Unanimity

/-!
What a verdict says. Whoever accepts has seen finite fingerprints only, and under exact
matching stages whose replicas have one checksum. A member that disagrees within its own
stage reports itself and the first replica that it disagrees with. None of this depends on
the order in which the fingerprints were gathered.
-/

namespace PipelineTraining

theorem Fingerprint.isFinite_eq_false {fingerprint : Fingerprint} :
    fingerprint.isFinite = false ↔ fingerprint.nonFinite = true ∨
      fingerprint.norm.isInf = true ∨ fingerprint.norm.isNaN = true := by
  have norm : fingerprint.norm.isFinite = false ↔
      fingerprint.norm.isInf = true ∨ fingerprint.norm.isNaN = true := by
    change fingerprint.norm.toModel.unpack.isFinite = false ↔
      fingerprint.norm.toModel.unpack.isInf = true ∨ fingerprint.norm.toModel.unpack.isNaN = true
    cases fingerprint.norm.toModel.unpack with
    | notANumber => exact iff_of_true rfl (Or.inr rfl)
    | infinity => exact iff_of_true rfl (Or.inl rfl)
    | zero | finite =>
        refine iff_of_false Bool.true_eq_false.mp ?_
        rintro (infinite | undefined)
        · cases infinite
        · cases undefined
  rw [isFinite, Bool.and_eq_false_iff, norm, Bool.not_eq_false']

namespace Comparison

variable {gathered other : List StageFingerprint} {mode : MatchMode}
  {member mate : StageFingerprint} {stage : Nat}

structure Uniform (gathered : List StageFingerprint) : Prop where
  finite : ∀ entry ∈ gathered, entry.fingerprint.isFinite = true
  alike : ∀ one ∈ gathered, ∀ other ∈ gathered, one.stage = other.stage →
    one.fingerprint.checksum = other.fingerprint.checksum

structure Dissents (gathered : List StageFingerprint) (mode : MatchMode)
    (member other : StageFingerprint) : Prop where
  known : other ∈ gathered
  stage : other.stage = member.stage
  different : other.replica ≠ member.replica
  disagrees : member.fingerprint.agrees other.fingerprint mode = false

/-- Where a member accepts, every stage has a hub: its own stage the member itself, every other
stage its first replica. -/
theorem exists_hub_of_consistent (distinct : Distinct gathered) (present : member ∈ gathered)
    (accepted : (compare gathered member.stage member.replica mode).isConsistent = true)
    (known : mate ∈ gathered) :
    ∃ hub ∈ gathered, mate.stage = hub.stage ∧ Hub gathered mode hub := by
  obtain ⟨own, leads⟩ := (compare_consistent distinct present).mp accepted
  by_cases here : mate.stage = member.stage
  · exact ⟨member, present, here, own⟩
  · obtain ⟨lead, leadKnown, same, leading⟩ := exists_lead known
    exact ⟨lead, leadKnown, same.symm, leads lead leadKnown (same ▸ here) leading⟩

theorem finite_of_consistent (distinct : Distinct gathered) (present : member ∈ gathered)
    (accepted : (compare gathered member.stage member.replica mode).isConsistent = true)
    (known : mate ∈ gathered) : mate.fingerprint.isFinite = true := by
  obtain ⟨center, centerKnown, stage, hub⟩ :=
    exists_hub_of_consistent distinct present accepted known
  exact (hub.mate distinct centerKnown known stage).1

theorem consistent_exact_iff (distinct : Distinct gathered) (present : member ∈ gathered) :
    (compare gathered member.stage member.replica .exact).isConsistent = true ↔
      Uniform gathered := by
  constructor
  · intro accepted
    refine ⟨fun entry known => finite_of_consistent distinct present accepted known, ?_⟩
    intro one oneKnown other otherKnown stage
    obtain ⟨center, known, same, hub⟩ :=
      exists_hub_of_consistent distinct present accepted oneKnown
    rw [(hub.mate distinct known oneKnown same).2 rfl,
      (hub.mate distinct known otherKnown (stage.symm.trans same)).2 rfl]
  · intro uniform
    have hubs : ∀ entry ∈ gathered, Hub gathered .exact entry := by
      intro entry known
      refine ⟨uniform.finite entry known, fun other otherKnown stage _ => ?_⟩
      simp [Fingerprint.agrees, uniform.finite entry known, uniform.finite other otherKnown,
        uniform.alike entry known other otherKnown stage.symm]
    exact (compare_consistent distinct present).mpr
      ⟨hubs member present, fun lead known _ _ => hubs lead known⟩

/-- The replicas of a stage are looked through in their order, so the first one that is found is
the lowest. -/
theorem replica_le_of_find? {accepts : StageFingerprint → Bool} {entries : List StageFingerprint}
    (sorted : entries.Pairwise fun left right => left.replica ≤ right.replica)
    (found : entries.find? accepts = some member) (known : mate ∈ entries)
    (accepted : accepts mate = true) : member.replica ≤ mate.replica := by
  obtain ⟨_, before, after, rfl, refused⟩ := List.find?_eq_some_iff_append.mp found
  rcases List.mem_append.mp known with early | late
  · have passed := refused mate early
    rw [accepted] at passed
    cases passed
  · rcases List.mem_cons.mp late with rfl | later
    · exact Nat.le_refl _
    · exact (List.pairwise_cons.mp (List.pairwise_append.mp sorted).2.1).1 mate later

/-- A member that disagrees within its stage reports itself and the lowest replica that it
disagrees with. -/
theorem compare_of_dissent (distinct : Distinct gathered) (present : member ∈ gathered)
    (dissents : Dissents gathered mode member mate) :
    ∃ remote, Dissents gathered mode member remote ∧
      (∀ other, Dissents gathered mode member other → remote.replica ≤ other.replica) ∧
      compare gathered member.stage member.replica mode =
        .mismatch member.fingerprint remote.fingerprint := by
  let others := (replicas gathered member.stage).filter (·.replica != member.replica)
  let refused (entry : StageFingerprint) := !member.fingerprint.agrees entry.fingerprint mode
  have listed : ∀ entry, entry ∈ others ∧ refused entry = true ↔
      Dissents gathered mode member entry := by
    intro entry
    simp only [others, refused, List.mem_filter, mem_replicas, bne_iff_ne, Bool.not_eq_true']
    exact ⟨fun ⟨⟨⟨known, stage⟩, different⟩, disagrees⟩ => ⟨known, stage, different, disagrees⟩,
      fun ⟨known, stage, different, disagrees⟩ => ⟨⟨⟨known, stage⟩, different⟩, disagrees⟩⟩
  obtain ⟨remote, found⟩ : ∃ remote, others.find? refused = some remote := by
    rw [← Option.isSome_iff_exists, List.find?_isSome]
    exact ⟨mate, (listed mate).mpr dissents⟩
  refine ⟨remote, ?_, fun other otherDissents => ?_, ?_⟩
  · exact (listed remote).mp ⟨List.mem_of_find?_eq_some found, List.find?_some found⟩
  · obtain ⟨known, disagrees⟩ := (listed other).mpr otherDissents
    exact replica_le_of_find? ((replicas_sorted gathered member.stage).filter _) found known
      disagrees
  · have own : ownStage? gathered member.stage member.replica mode =
        some (.mismatch member.fingerprint remote.fingerprint) := by
      simp only [ownStage?, find_self distinct present, dissenter?]
      rw [show List.find? _ _ = some remote from found]
      rfl
    simp only [compare, own, Option.some_or, Option.getD_some]

/-- What a verdict means. A fingerprint that is not finite makes everyone refuse; under exact
matching a member accepts exactly if all fingerprints are finite and the replicas of every stage
have one checksum; and a member that disagrees within its stage names itself and the lowest replica
that it disagrees with. -/
theorem verdict_means (distinct : Distinct gathered) (present : member ∈ gathered) :
    ((∃ entry ∈ gathered, entry.fingerprint.nonFinite = true ∨
        entry.fingerprint.norm.isInf = true ∨ entry.fingerprint.norm.isNaN = true) →
      ∀ mode, ∃ own other,
        compare gathered member.stage member.replica mode = .mismatch own other) ∧
    (compare gathered member.stage member.replica .exact = .consistent ↔ Uniform gathered) ∧
    ∀ mode mate, Dissents gathered mode member mate →
      ∃ remote, Dissents gathered mode member remote ∧
        (∀ other, Dissents gathered mode member other → remote.replica ≤ other.replica) ∧
        compare gathered member.stage member.replica mode =
          .mismatch member.fingerprint remote.fingerprint := by
  refine ⟨?_, ?_, fun mode mate => compare_of_dissent distinct present⟩
  · rintro ⟨entry, known, broken⟩ mode
    cases verdict : compare gathered member.stage member.replica mode with
    | mismatch own other => exact ⟨own, other, rfl⟩
    | consistent =>
        have finite := finite_of_consistent distinct present (congrArg _ verdict) known
        rw [Fingerprint.isFinite_eq_false.mpr broken] at finite
        cases finite
  · rw [← consistent_exact_iff distinct present]
    cases compare gathered member.stage member.replica .exact <;> simp [Outcome.isConsistent]

/-- Three replicas of a stage that all differ, gathered last first, and one of another stage. -/
def quarrel : List StageFingerprint :=
  [⟨0, 2, .make 3 1.0⟩, ⟨1, 0, .make 4 1.0⟩, ⟨0, 1, .make 2 1.0⟩, ⟨0, 0, .make 1 1.0⟩]

/-- Between two others the middle replica names the lower one, though it was gathered last. -/
theorem verdict_means_quarrel : Distinct quarrel ∧
    compare quarrel 0 1 .exact = .mismatch (.make 2 1.0) (.make 1 1.0) := by
  have distinct : Distinct quarrel := by decide
  have present : ⟨0, 1, .make 2 1.0⟩ ∈ quarrel := by simp [quarrel]
  have first : ⟨0, 0, .make 1 1.0⟩ ∈ quarrel := by simp [quarrel]
  have dissents : Dissents quarrel .exact ⟨0, 1, .make 2 1.0⟩ ⟨0, 0, .make 1 1.0⟩ :=
    ⟨first, rfl, by decide, by decide⟩
  obtain ⟨remote, found, lowest, reported⟩ :=
    (verdict_means distinct present).2.2 .exact _ dissents
  have replica : remote.replica = 0 := Nat.le_zero.mp (lowest _ dissents)
  obtain rfl := distinct.eq_of_place found.known first found.stage replica
  exact ⟨distinct, reported⟩

/-- Both lists hold the replicas of a stage in the one order that their numbers allow. -/
theorem replicas_of_perm (distinct : Distinct gathered) (order : gathered.Perm other)
    (stage : Nat) : replicas gathered stage = replicas other stage := by
  refine List.Perm.eq_of_pairwise ?_ (replicas_sorted gathered stage)
    (replicas_sorted other stage) ?_
  · intro one another listed listedToo below above
    obtain ⟨known, here⟩ := mem_replicas.mp listed
    obtain ⟨knownToo, hereToo⟩ := mem_replicas.mp listedToo
    exact distinct.eq_of_place known (order.mem_iff.mpr knownToo) (here.trans hereToo.symm)
      (Nat.le_antisymm below above)
  · exact (List.mergeSort_perm _ _).trans
      ((order.filter _).trans (List.mergeSort_perm _ _).symm)

theorem stages_of_perm (order : gathered.Perm other) : stages gathered = stages other := by
  have sorted : (gathered.map StageFingerprint.stage).mergeSort (fun left right => left ≤ right) =
      (other.map StageFingerprint.stage).mergeSort (fun left right => left ≤ right) := by
    refine List.Perm.eq_of_pairwise' (List.pairwise_mergeSort' (· ≤ ·) _)
      (List.pairwise_mergeSort' (· ≤ ·) _) ?_
    exact (List.mergeSort_perm _ _).trans
      ((order.map StageFingerprint.stage).trans (List.mergeSort_perm _ _).symm)
  rw [stages, sorted, stages]

/-- A verdict does not depend on the order in which the fingerprints were gathered, whether or not
the member's own is among them. -/
theorem verdict_unordered (distinct : Distinct gathered) (order : gathered.Perm other)
    (stage replica : Nat) (mode : MatchMode) :
    compare gathered stage replica mode = compare other stage replica mode := by
  have own : ownStage? gathered stage replica mode = ownStage? other stage replica mode := by
    simp only [ownStage?, replicas_of_perm distinct order]
  have others : otherStage? gathered mode = otherStage? other mode := by
    funext place
    simp only [otherStage?, replicas_of_perm distinct order]
  simp only [compare, own, others, stages_of_perm order]

theorem verdict_unordered_quarrel : Distinct quarrel ∧ quarrel.Perm quarrel.reverse ∧
    compare quarrel 0 1 (.tolerance 0.5) = compare quarrel.reverse 0 1 (.tolerance 0.5) ∧
    compare quarrel 5 0 .exact = compare quarrel.reverse 5 0 .exact := by
  have distinct : Distinct quarrel := by decide
  have order : quarrel.Perm quarrel.reverse := (List.reverse_perm _).symm
  exact ⟨distinct, order, verdict_unordered distinct order 0 1 _,
    verdict_unordered distinct order 5 0 _⟩

end Comparison
end PipelineTraining

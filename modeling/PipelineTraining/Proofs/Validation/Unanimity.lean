import Mathlib.Data.List.Nodup
import PipelineTraining.Validation.Comparison

/-!
When the members of a group reach one verdict. A member accepts if it agrees with
every other replica of its own stage and the first replica of every other stage
does the same there. Agreement up to a tolerance does not carry over from one
replica to the next, so a replica between two that disagree may accept where they
do not.
-/

namespace PipelineTraining.Comparison

variable {gathered : List StageFingerprint} {mode : MatchMode}

def Distinct (gathered : List StageFingerprint) : Prop :=
  (gathered.map fun entry => (entry.stage, entry.replica)).Nodup

instance (gathered : List StageFingerprint) : Decidable (Distinct gathered) :=
  inferInstanceAs (Decidable (List.Nodup _))

def Unanimous (gathered : List StageFingerprint) (mode : MatchMode) : Prop :=
  ∀ one ∈ gathered, ∀ other ∈ gathered,
    ((compare gathered one.stage one.replica mode).isConsistent ↔
      (compare gathered other.stage other.replica mode).isConsistent)

/-- A member that is finite and agrees with every other replica of its stage. -/
structure Hub (gathered : List StageFingerprint) (mode : MatchMode)
    (member : StageFingerprint) : Prop where
  finite : member.fingerprint.isFinite = true
  agrees : ∀ other ∈ gathered, other.stage = member.stage → other.replica ≠ member.replica →
    member.fingerprint.agrees other.fingerprint mode = true

def Leads (gathered : List StageFingerprint) (member : StageFingerprint) : Prop :=
  ∀ other ∈ gathered, other.stage = member.stage → member.replica ≤ other.replica

theorem Distinct.eq_of_place (distinct : Distinct gathered) {one other : StageFingerprint}
    (oneMember : one ∈ gathered) (otherMember : other ∈ gathered) (stage : one.stage = other.stage)
    (replica : one.replica = other.replica) : one = other :=
  List.inj_on_of_nodup_map distinct oneMember otherMember (Prod.ext stage replica)

theorem Distinct.nodup (distinct : Distinct gathered) : gathered.Nodup :=
  List.Nodup.of_map _ distinct

theorem mem_replicas {stage : Nat} {entry : StageFingerprint} :
    entry ∈ replicas gathered stage ↔ entry ∈ gathered ∧ entry.stage = stage := by
  simp [replicas]

theorem replicas_sorted (gathered : List StageFingerprint) (stage : Nat) :
    (replicas gathered stage).Pairwise fun left right => left.replica ≤ right.replica := by
  have sorted : (replicas gathered stage).Pairwise fun left right =>
      decide (left.replica ≤ right.replica) = true := by
    refine List.pairwise_mergeSort ?_ ?_ _
    · intro one other third first second
      simp only [decide_eq_true_eq] at first second ⊢
      exact Nat.le_trans first second
    · intro one other
      simp only [Bool.or_eq_true, decide_eq_true_eq]
      exact Nat.le_total _ _
  exact sorted.imp fun ordered => of_decide_eq_true ordered

/-- The replica that a stage is compared by is its first. -/
theorem leads_of_replicas {stage : Nat} {first : StageFingerprint} {rest : List StageFingerprint}
    (listed : replicas gathered stage = first :: rest) :
    first ∈ gathered ∧ first.stage = stage ∧ Leads gathered first := by
  have sorted := replicas_sorted gathered stage
  rw [listed, List.pairwise_cons] at sorted
  have member : first ∈ replicas gathered stage := by simp [listed]
  obtain ⟨known, same⟩ := mem_replicas.mp member
  refine ⟨known, same, fun other otherKnown sameStage => ?_⟩
  have otherMember := mem_replicas.mpr ⟨otherKnown, sameStage.trans same⟩
  rw [listed] at otherMember
  rcases List.mem_cons.mp otherMember with rfl | later
  · exact Nat.le_refl _
  · exact sorted.1 other later

theorem exists_lead {member : StageFingerprint} (known : member ∈ gathered) :
    ∃ lead ∈ gathered, lead.stage = member.stage ∧ Leads gathered lead := by
  have listed := mem_replicas.mpr ⟨known, rfl⟩
  cases order : replicas gathered member.stage with
  | nil =>
      rw [order] at listed
      cases listed
  | cons first rest =>
      obtain ⟨firstKnown, stage, leads⟩ := leads_of_replicas order
      exact ⟨first, firstKnown, stage, leads⟩

theorem Distinct.lead_unique (distinct : Distinct gathered) {one other : StageFingerprint}
    (oneKnown : one ∈ gathered) (otherKnown : other ∈ gathered) (stage : one.stage = other.stage)
    (oneLeads : Leads gathered one) (otherLeads : Leads gathered other) : one = other :=
  distinct.eq_of_place oneKnown otherKnown stage
    (Nat.le_antisymm (oneLeads other otherKnown stage.symm) (otherLeads one oneKnown stage))

theorem replicas_nodup (distinct : Distinct gathered) (stage : Nat) :
    (replicas gathered stage).Nodup :=
  (List.mergeSort_perm _ _).nodup_iff.mpr (distinct.nodup.filter _)

theorem mem_stages {stage : Nat} :
    stage ∈ stages gathered ↔ ∃ entry ∈ gathered, entry.stage = stage := by
  simp [stages]

theorem dissenter?_eq_none {own : Fingerprint} {others : List StageFingerprint} :
    dissenter? mode own others = none ↔
      ∀ other ∈ others, own.agrees other.fingerprint mode = true := by
  simp [dissenter?]

theorem finite?_eq_none {own : Fingerprint} : finite? own = none ↔ own.isFinite = true := by
  simp [finite?]

theorem find_self (distinct : Distinct gathered) {member : StageFingerprint}
    (present : member ∈ gathered) : (replicas gathered member.stage).find?
      (fun entry => entry.replica == member.replica) = some member := by
  obtain ⟨entry, found⟩ : ∃ entry, (replicas gathered member.stage).find?
      (fun entry => entry.replica == member.replica) = some entry := by
    rw [← Option.isSome_iff_exists, List.find?_isSome]
    exact ⟨member, mem_replicas.mpr ⟨present, rfl⟩, beq_self_eq_true _⟩
  obtain ⟨known, stage⟩ := mem_replicas.mp (List.mem_of_find?_eq_some found)
  have replica : entry.replica = member.replica := by simpa using List.find?_some found
  rw [found, distinct.eq_of_place known present stage replica]

theorem ownStage?_eq_none (distinct : Distinct gathered) {member : StageFingerprint}
    (present : member ∈ gathered) :
    ownStage? gathered member.stage member.replica mode = none ↔ Hub gathered mode member := by
  simp only [ownStage?, find_self distinct present, Option.or_eq_none_iff, dissenter?_eq_none,
    finite?_eq_none]
  constructor
  · rintro ⟨agrees, finite⟩
    refine ⟨finite, fun other known stage different => agrees other ?_⟩
    rw [List.mem_filter]
    exact ⟨mem_replicas.mpr ⟨known, stage⟩, by simpa using different⟩
  · rintro ⟨finite, agrees⟩
    refine ⟨fun other kept => ?_, finite⟩
    obtain ⟨listed, different⟩ := List.mem_filter.mp kept
    obtain ⟨known, stage⟩ := mem_replicas.mp listed
    exact agrees other known stage (by simpa using different)

theorem otherStage?_eq_none (distinct : Distinct gathered) {stage : Nat} :
    otherStage? gathered mode stage = none ↔
      ∀ lead ∈ gathered, lead.stage = stage → Leads gathered lead → Hub gathered mode lead := by
  cases listed : replicas gathered stage with
  | nil =>
      have empty : ∀ lead ∈ gathered, lead.stage ≠ stage := by
        intro lead known same
        have member := mem_replicas.mpr ⟨known, same⟩
        rw [listed] at member
        cases member
      simp only [otherStage?, listed, true_iff]
      exact fun lead known same => absurd same (empty lead known)
  | cons first rest =>
      have noDup := replicas_nodup distinct stage
      have known : ∀ entry, entry ∈ first :: rest ↔ entry ∈ gathered ∧ entry.stage = stage := by
        intro entry
        rw [← listed]
        exact mem_replicas
      rw [listed, List.nodup_cons] at noDup
      obtain ⟨firstKnown, firstStage, leads⟩ := leads_of_replicas listed
      simp only [otherStage?, listed, Option.or_eq_none_iff, dissenter?_eq_none, finite?_eq_none]
      constructor
      · rintro ⟨finite, agrees⟩ lead leadKnown same leading
        obtain rfl := distinct.lead_unique leadKnown firstKnown (same.trans firstStage.symm) leading
          leads
        refine ⟨finite, fun other otherKnown sameStage different => ?_⟩
        have member := (known other).mpr ⟨otherKnown, sameStage.trans firstStage⟩
        rcases List.mem_cons.mp member with rfl | later
        · exact absurd rfl different
        · exact agrees other later
      · intro hubs
        obtain ⟨finite, agrees⟩ := hubs first firstKnown firstStage leads
        refine ⟨finite, fun other later => ?_⟩
        obtain ⟨otherKnown, otherStage⟩ := (known other).mp (List.mem_cons_of_mem _ later)
        refine agrees other otherKnown (otherStage.trans firstStage.symm) fun same => ?_
        rw [distinct.eq_of_place otherKnown firstKnown (otherStage.trans firstStage.symm) same]
          at later
        exact noDup.1 later

theorem dissenter?_mismatch {own : Fingerprint} {others : List StageFingerprint}
    {outcome : Outcome} (found : dissenter? mode own others = some outcome) :
    outcome.isConsistent = false := by
  obtain ⟨other, _, rfl⟩ := Option.map_eq_some_iff.mp found
  rfl

theorem finite?_mismatch {own : Fingerprint} {outcome : Outcome}
    (found : finite? own = some outcome) : outcome.isConsistent = false := by
  unfold finite? at found
  split at found
  · cases found
  · cases found
    rfl

theorem ownStage?_mismatch {stage replica : Nat} {outcome : Outcome}
    (found : ownStage? gathered stage replica mode = some outcome) :
    outcome.isConsistent = false := by
  unfold ownStage? at found
  dsimp only at found
  split at found
  · cases found
  · rcases Option.or_eq_some_iff.mp found with dissent | ⟨_, broken⟩
    · exact dissenter?_mismatch dissent
    · exact finite?_mismatch broken

theorem otherStage?_mismatch {stage : Nat} {outcome : Outcome}
    (found : otherStage? gathered mode stage = some outcome) : outcome.isConsistent = false := by
  unfold otherStage? at found
  split at found
  · cases found
  · rcases Option.or_eq_some_iff.mp found with broken | ⟨_, dissent⟩
    · exact finite?_mismatch broken
    · exact dissenter?_mismatch dissent

/-- A member accepts if it is a hub and so is the first replica of every other stage. -/
theorem compare_consistent (distinct : Distinct gathered) {member : StageFingerprint}
    (present : member ∈ gathered) :
    (compare gathered member.stage member.replica mode).isConsistent = true ↔
      Hub gathered mode member ∧ ∀ lead ∈ gathered, lead.stage ≠ member.stage →
        Leads gathered lead → Hub gathered mode lead := by
  have others : ((stages gathered).filter fun other => other != member.stage).findSome?
        (otherStage? gathered mode) = none ↔
      ∀ lead ∈ gathered, lead.stage ≠ member.stage → Leads gathered lead →
        Hub gathered mode lead := by
    simp only [List.findSome?_eq_none_iff, List.mem_filter, mem_stages,
      otherStage?_eq_none distinct,
      bne_iff_ne]
    constructor
    · intro hubs lead known different
      exact hubs lead.stage ⟨⟨lead, known, rfl⟩, different⟩ lead known rfl
    · rintro hubs stage ⟨_, different⟩ lead known rfl
      exact hubs lead known different
  rw [← ownStage?_eq_none distinct present, ← others, ← Option.or_eq_none_iff]
  unfold compare
  dsimp only
  cases verdict : (ownStage? gathered member.stage member.replica mode).or
      (((stages gathered).filter fun other => other != member.stage).findSome?
        (otherStage? gathered mode)) with
  | none => simp [Outcome.isConsistent]
  | some outcome =>
      have mismatch : outcome.isConsistent = false := by
        rcases Option.or_eq_some_iff.mp verdict with own | ⟨_, found⟩
        · exact ownStage?_mismatch own
        · obtain ⟨_, _, other⟩ := List.exists_of_findSome?_eq_some found
          exact otherStage?_mismatch other
      simp [mismatch]

theorem unanimous_of_spread (distinct : Distinct gathered)
    (spread : ∀ member ∈ gathered, Hub gathered mode member → ∀ other ∈ gathered,
      other.stage = member.stage → Hub gathered mode other) : Unanimous gathered mode := by
  have carries : ∀ one ∈ gathered, ∀ other ∈ gathered,
      (compare gathered one.stage one.replica mode).isConsistent →
      (compare gathered other.stage other.replica mode).isConsistent := by
    intro one oneKnown other otherKnown accepted
    obtain ⟨hub, leads⟩ := (compare_consistent distinct oneKnown).mp accepted
    -- Where one member accepts, the first replica of every stage is a hub.
    have hubs : ∀ member ∈ gathered, Leads gathered member → Hub gathered mode member := by
      intro member known leading
      by_cases same : member.stage = one.stage
      · exact spread one oneKnown hub member known same
      · exact leads member known same leading
    refine (compare_consistent distinct otherKnown).mpr ⟨?_, fun lead known _ => hubs lead known⟩
    obtain ⟨lead, known, stage, leading⟩ := exists_lead otherKnown
    exact spread lead known (hubs lead known leading) other otherKnown stage.symm
  intro one oneKnown other otherKnown
  exact ⟨carries one oneKnown other otherKnown, carries other otherKnown one oneKnown⟩

/-- A hub agrees with finite fingerprints only, and exactly with those of its checksum. -/
theorem Hub.mate {member other : StageFingerprint} (hub : Hub gathered mode member)
    (distinct : Distinct gathered) (known : member ∈ gathered) (otherKnown : other ∈ gathered)
    (stage : other.stage = member.stage) : other.fingerprint.isFinite = true ∧
      (mode = .exact → other.fingerprint.checksum = member.fingerprint.checksum) := by
  by_cases own : other.replica = member.replica
  · obtain rfl := distinct.eq_of_place otherKnown known stage own
    exact ⟨hub.finite, fun _ => rfl⟩
  · have agrees := hub.agrees other otherKnown stage own
    simp only [Fingerprint.agrees, Bool.and_eq_true] at agrees
    obtain ⟨⟨_, finite⟩, close⟩ := agrees
    refine ⟨finite, ?_⟩
    rintro rfl
    exact (beq_iff_eq.mp close).symm

/-- Equal checksums carry over from one replica to the next. -/
theorem hub_spread_exact (distinct : Distinct gathered) {member other : StageFingerprint}
    (hub : Hub gathered .exact member) (known : member ∈ gathered) (otherKnown : other ∈ gathered)
    (stage : other.stage = member.stage) : Hub gathered .exact other := by
  obtain ⟨finite, checksum⟩ := hub.mate distinct known otherKnown stage
  refine ⟨finite, fun third thirdKnown same _ => ?_⟩
  obtain ⟨thirdFinite, thirdChecksum⟩ := hub.mate distinct known thirdKnown (same.trans stage)
  simp [Fingerprint.agrees, finite, thirdFinite, checksum rfl, thirdChecksum rfl]

/-- The verdicts agree if all members are hubs or none accepts, as where another stage's first
replica stands against every hub. Otherwise some member accepts and another does not, which exact
matching rules out. -/
theorem unanimous_iff (distinct : Distinct gathered) :
    (Unanimous gathered mode ↔
      (∀ member ∈ gathered, Hub gathered mode member) ∨
        ∀ member ∈ gathered, Hub gathered mode member → ∃ lead ∈ gathered,
          lead.stage ≠ member.stage ∧ Leads gathered lead ∧ ¬ Hub gathered mode lead) ∧
      Unanimous gathered .exact := by
  refine ⟨?_, unanimous_of_spread distinct fun member known hub other otherKnown stage =>
    hub_spread_exact distinct hub known otherKnown stage⟩
  constructor
  · intro unanimous
    by_contra split
    push Not at split
    obtain ⟨⟨loser, loserKnown, noHub⟩, winner, winnerKnown, hub, leads⟩ := split
    have accepted := (compare_consistent distinct winnerKnown).mpr ⟨hub, leads⟩
    have followed := (unanimous winner winnerKnown loser loserKnown).mp accepted
    exact noHub ((compare_consistent distinct loserKnown).mp followed).1
  · rintro (hubs | refused) one oneKnown other otherKnown
    · apply iff_of_true
      · exact (compare_consistent distinct oneKnown).mpr
          ⟨hubs one oneKnown, fun lead known _ _ => hubs lead known⟩
      · exact (compare_consistent distinct otherKnown).mpr
          ⟨hubs other otherKnown, fun lead known _ _ => hubs lead known⟩
    · -- Hubs refuse for the other stage's sake, all others for their own.
      have refuses : ∀ member ∈ gathered,
          ¬ (compare gathered member.stage member.replica mode).isConsistent := by
        intro member known accepted
        obtain ⟨hub, leads⟩ := (compare_consistent distinct known).mp accepted
        obtain ⟨lead, leadKnown, different, leading, noHub⟩ := refused member known hub
        exact noHub (leads lead leadKnown different leading)
      exact iff_of_false (refuses one oneKnown) (refuses other otherKnown)

/-- Three replicas of a stage, each next to the one before. -/
def chain : List StageFingerprint :=
  [⟨0, 0, .make 1 1.0⟩, ⟨0, 1, .make 2 1.5⟩, ⟨0, 2, .make 3 2.0⟩]

/-- The middle replica accepts where the outer ones find each other too far off. -/
theorem chain_not_unanimous :
    (ValidationSettings.mk true false 0.375).check = .ok () ∧ Distinct chain ∧
      ¬ Unanimous chain (.tolerance 0.375) := by
  have distinct : Distinct chain := by decide
  have middle : Hub chain (.tolerance 0.375) ⟨0, 1, .make 2 1.5⟩ := ⟨by decide, by decide⟩
  have oneStage : ∀ member ∈ chain, member.stage = 0 := by decide
  refine ⟨rfl, distinct, fun unanimous => ?_⟩
  have accepted := (compare_consistent distinct (by simp [chain])).mpr
    ⟨middle, fun lead known different _ => absurd (oneStage lead known) different⟩
  have followed := (unanimous _ (by simp [chain]) ⟨0, 0, .make 1 1.0⟩ (by simp [chain])).mp accepted
  obtain ⟨outer, _⟩ := (compare_consistent distinct (by simp [chain])).mp followed
  have tooFar := outer.agrees ⟨0, 2, .make 3 2.0⟩ (by simp [chain]) rfl (by decide)
  exact absurd tooFar (by decide)

/-- Behind a stage whose first replica is not finite the same replicas all refuse. -/
theorem unanimous_chain_of_broken_lead :
    Distinct (⟨1, 0, ⟨4, 1.0, true⟩⟩ :: chain) ∧
      Unanimous (⟨1, 0, ⟨4, 1.0, true⟩⟩ :: chain) (.tolerance 0.375) := by
  have distinct : Distinct (⟨1, 0, ⟨4, 1.0, true⟩⟩ :: chain) := by decide
  have later : ∀ member ∈ chain, member.stage ≠ 1 := by decide
  refine ⟨distinct, (unanimous_iff distinct).1.mpr (Or.inr fun member known hub => ?_)⟩
  rcases List.mem_cons.mp known with rfl | inChain
  · exact absurd hub.finite (by decide)
  · refine ⟨_, List.mem_cons_self, (later member inChain).symm, ?_, fun broken => ?_⟩
    · intro other _ _
      exact Nat.zero_le _
    · exact absurd broken.finite (by decide)

end PipelineTraining.Comparison

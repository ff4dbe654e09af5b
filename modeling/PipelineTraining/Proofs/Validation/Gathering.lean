import Mathlib.Data.List.Pairwise
import PipelineTraining.Proofs.Clock.Course
import PipelineTraining.Proofs.Transport.Reliability
import PipelineTraining.Proofs.Transport.Tags
import PipelineTraining.Validation.Gather

/-!
The exchange of fingerprints among members that call it again and again, each at its own
pace. A call can be given up at any receive that finds nothing, and what it has published
stays behind. Still no call ever returns what belongs to another one: a member's entry is
what it passed to its own call of that epoch, so whoever returns has seen all others begin.
-/

namespace PipelineTraining
namespace Gather

/-- How far a member is with a call. What is left of earlier epochs is dropped first. -/
inductive Call where
  | idle
  | opened (epoch : UInt32) (own : StageFingerprint)
  | going (gather : Gather)

inductive Event where
  | began (who : Nat) (epoch : UInt32) (own : StageFingerprint)
  | published (who peer : Nat) (epoch : UInt32)
  | returned (who : Nat) (epoch : UInt32) (entries : List StageFingerprint)
  | failed (who : Nat) (epoch : UInt32)

def Event.begins? (who : Nat) : Event → Option UInt32
  | .began member epoch _ => if member = who then some epoch else none
  | _ => none

def epochs (who : Nat) (log : List Event) : List UInt32 :=
  log.filterMap (Event.begins? who)

theorem epochs_calm {who : Nat} {event : Event} (calm : event.begins? who = none)
    (log : List Event) : epochs who (log ++ [event]) = epochs who log := by
  rw [epochs, epochs, List.filterMap_append, List.filterMap_cons, calm]
  exact List.append_nil _

/-- What calls on a mesh of their own can come to. A member's epochs go up around the circle. -/
inductive Past (members : Nat) : List Event → (Nat → Call) → Mesh StageFingerprint → Prop
  | start : Past members [] (fun _ => .idle) (.make members)
  | begin {log : List Event} {calls : Nat → Call} {mesh : Mesh StageFingerprint} (who : Nat)
      (epoch : UInt32) (own : StageFingerprint) (past : Past members log calls mesh)
      (inside : who < members) (idle : calls who = .idle)
      (later : ∀ last ∈ (epochs who log).getLast?, EpochBefore last epoch) :
      Past members (log ++ [.began who epoch own])
        (Function.update calls who (.opened epoch own)) mesh
  | drop {log : List Event} {calls : Nat → Call} {mesh : Mesh StageFingerprint} {epoch : UInt32}
      {own : StageFingerprint} (who : Nat) (past : Past members log calls mesh)
      (opened : calls who = .opened epoch own) :
      Past members log (Function.update calls who (.going (.start who members epoch own)))
        (mesh.discard who (·.isStale epoch)).2
  | publish {log : List Event} {calls : Nat → Call} {mesh next : Mesh StageFingerprint}
      {gather : Gather} {peer : Nat} (who : Nat) (past : Past members log calls mesh)
      (going : calls who = .going gather) (asks : gather.move = .publish peer)
      (sent : mesh.send gather.rank peer gather.tag gather.own = .ok next) :
      Past members (log ++ [.published who peer gather.epoch])
        (Function.update calls who (.going gather.published)) next
  | collect {log : List Event} {calls : Nat → Call} {mesh next : Mesh StageFingerprint}
      {gather : Gather} {peer : Nat} {entry : StageFingerprint} (who : Nat)
      (past : Past members log calls mesh) (going : calls who = .going gather)
      (asks : gather.move = .collect peer)
      (found : mesh.receive gather.rank peer gather.tag = .ok (some entry, next)) :
      Past members log (Function.update calls who (.going (gather.collected entry))) next
  | look {log : List Event} {calls : Nat → Call} {mesh next : Mesh StageFingerprint}
      {gather : Gather} {peer : Nat} (who : Nat) (past : Past members log calls mesh)
      (going : calls who = .going gather) (asks : gather.move = .collect peer)
      (missed : mesh.receive gather.rank peer gather.tag = .ok (none, next)) :
      Past members log calls next
  /-- A receive that has found nothing in time gives the call up. -/
  | expire {log : List Event} {calls : Nat → Call} {mesh next : Mesh StageFingerprint}
      {gather : Gather} {peer : Nat} (who : Nat) (past : Past members log calls mesh)
      (going : calls who = .going gather) (asks : gather.move = .collect peer)
      (missed : mesh.receive gather.rank peer gather.tag = .ok (none, next)) :
      Past members (log ++ [.failed who gather.epoch]) (Function.update calls who .idle) next
  | finish {log : List Event} {calls : Nat → Call} {mesh : Mesh StageFingerprint}
      {gather : Gather} (who : Nat) (past : Past members log calls mesh)
      (going : calls who = .going gather) (asks : gather.move = .finish) :
      Past members (log ++ [.returned who gather.epoch gather.result])
        (Function.update calls who .idle) mesh

def Within (base : UInt32) (log : List Event) : Prop :=
  ∀ who epoch own, Event.began who epoch own ∈ log → (epoch - base).toNat < 2 ^ 31

def Call.Lacks (source : Nat) (epoch : UInt32) : Call → Prop
  | .idle => False
  | .opened begun _ => begun = epoch
  | .going gather => gather.epoch = epoch ∧ source ∈ gather.missing

/-- What a member publishes for an epoch still has a call to go to: the other has not come to that
epoch, or it is in that very call and has not got it. -/
def Awaited (log : List Event) (calls : Nat → Call) (source target : Nat) (epoch : UInt32) : Prop :=
  (∀ earlier ∈ epochs target log, EpochBefore earlier epoch) ∨ (calls target).Lacks source epoch

structure Faithful (members : Nat) (log : List Event) (calls : Nat → Call)
    (mesh : Mesh StageFingerprint) : Prop where
  /-- A call returns one entry of every member, the one of its own call of that epoch, which it has
  begun before. -/
  returned : ∀ before after who epoch entries,
    log = before ++ .returned who epoch entries :: after →
      entries.length = members ∧ ∀ peer, peer < members →
        ∃ own, entries[peer]? = some own ∧ .began peer epoch own ∈ before
  /-- A member begins an epoch once. -/
  once : ∀ who epoch own other, .began who epoch own ∈ log → .began who epoch other ∈ log →
    own = other
  /-- Calls of one epoch return the same. -/
  agreed : ∀ who other epoch entries others, .returned who epoch entries ∈ log →
    .returned other epoch others ∈ log → entries = others
  /-- What a member drops belongs to earlier epochs. -/
  dropped : ∀ who epoch own, calls who = .opened epoch own → ∀ envelope ∈ mesh.held who,
    envelope.tag.epoch = epoch ∨ EpochBefore epoch envelope.tag.epoch →
      envelope ∈ (mesh.discard who (·.isStale epoch)).2.held who
  /-- What is published waits for the call that it is for. -/
  kept : ∀ source target epoch, .published source target epoch ∈ log →
    Awaited log calls source target epoch →
      ∃ own, ⟨source, .fingerprint epoch, own⟩ ∈ mesh.held target

@[simp]
theorem epoch_enterOwn (gather : Gather) : gather.enterOwn.epoch = gather.epoch := by
  unfold enterOwn
  split
  · rfl
  · split <;> rfl

theorem missing_enterOwn (gather : Gather) : gather.enterOwn.missing ⊆ gather.missing := by
  unfold enterOwn
  split
  · exact List.Subset.refl _
  · next peer rest missing =>
    split
    · rw [missing]
      exact List.subset_cons_self ..
    · exact List.Subset.refl _

theorem length_enterOwn (gather : Gather) :
    gather.enterOwn.unsent = gather.unsent ∧
      gather.enterOwn.missing.length ≤ gather.missing.length := by
  unfold enterOwn
  split
  · exact ⟨rfl, Nat.le_refl _⟩
  · next rest missing =>
    split
    · exact ⟨rfl, by simp [missing]⟩
    · exact ⟨rfl, Nat.le_refl _⟩

section moves

variable {gather : Gather} {peer : Nat}

theorem unsent_of_publish (asks : gather.move = .publish peer) :
    ∃ rest, gather.unsent = peer :: rest := by
  unfold move at asks
  split at asks
  · next first rest unsent => exact ⟨rest, Move.publish.inj asks ▸ unsent⟩
  · cases asks
  · cases asks

theorem missing_of_collect (asks : gather.move = .collect peer) :
    gather.unsent = [] ∧ ∃ rest, gather.enterOwn.missing = peer :: rest := by
  unfold move at asks
  split at asks
  · cases asks
  · next first rest unsent missing => exact ⟨unsent, rest, Move.collect.inj asks ▸ missing⟩
  · cases asks

theorem nothing_of_finish (asks : gather.move = .finish) :
    gather.unsent = [] ∧ gather.enterOwn.missing = [] := by
  unfold move at asks
  split at asks
  · cases asks
  · cases asks
  · next unsent missing => exact ⟨unsent, missing⟩

theorem length_published (asks : gather.move = .publish peer) :
    gather.published.unsent.length + 1 = gather.unsent.length := by
  obtain ⟨rest, unsent⟩ := unsent_of_publish asks
  simp [published, unsent]

theorem length_collected (asks : gather.move = .collect peer) (entry : StageFingerprint) :
    (gather.collected entry).unsent = gather.unsent ∧
      (gather.collected entry).missing.length < gather.missing.length := by
  obtain ⟨-, rest, missing⟩ := missing_of_collect asks
  obtain ⟨same, fewer⟩ := gather.length_enterOwn
  refine ⟨same, ?_⟩
  rw [missing, List.length_cons] at fewer
  rw [collected, missing]
  exact fewer

end moves

/-- A call in hand has the entries of the first members, each from that member's call of the same
epoch. -/
structure Underway (members : Nat) (log : List Event) (who : Nat) (gather : Gather) : Prop where
  rank : gather.rank = who
  began : .began who gather.epoch gather.own ∈ log
  last : (epochs who log).getLast? = some gather.epoch
  unsent : ∀ peer ∈ gather.unsent, peer < members ∧ peer ≠ who
  told : ∀ peer, peer < members → peer ≠ who →
    peer ∈ gather.unsent ∨ .published who peer gather.epoch ∈ log
  room : gather.gathered.length ≤ members
  missing : gather.missing =
    List.range' gather.gathered.length (members - gather.gathered.length)
  entries : ∀ peer entry, gather.gathered[peer]? = some entry → .began peer gather.epoch entry ∈ log

section underway

variable {members who peer : Nat} {log later : List Event} {gather : Gather}
  {entry : StageFingerprint}

theorem Underway.mono (underway : Underway members log who gather) (grows : log ⊆ later)
    (same : epochs who later = epochs who log) : Underway members later who gather where
  rank := underway.rank
  began := grows underway.began
  last := same ▸ underway.last
  unsent := underway.unsent
  told peer inside other := (underway.told peer inside other).imp_right fun told => grows told
  room := underway.room
  missing := underway.missing
  entries peer entry found := grows (underway.entries peer entry found)

theorem Underway.start {epoch : UInt32} {own : StageFingerprint}
    (began : .began who epoch own ∈ log) (last : (epochs who log).getLast? = some epoch) :
    Underway members log who (.start who members epoch own) where
  rank := rfl
  began := began
  last := last
  unsent peer unsent := by simpa [Gather.start] using unsent
  told peer inside other :=
    Or.inl (List.mem_filter.mpr ⟨List.mem_range.mpr inside, by simpa using other⟩)
  room := Nat.zero_le _
  missing := List.range_eq_range'
  entries peer entry found := by cases found

theorem Underway.published (underway : Underway members log who gather)
    (asks : gather.move = .publish peer) :
    Underway members (log ++ [.published who peer gather.epoch]) who gather.published := by
  obtain ⟨rest, unsent⟩ := unsent_of_publish asks
  have grows : log ⊆ log ++ [.published who peer gather.epoch] := List.subset_append_left ..
  have grown := underway.mono grows (epochs_calm rfl log)
  refine ⟨grown.rank, grown.began, grown.last, fun other left => ?_, fun other inside apart => ?_,
    grown.room, grown.missing, grown.entries⟩
  · exact grown.unsent other (List.mem_of_mem_tail left)
  · rcases grown.told other inside apart with left | told
    · rw [unsent] at left
      rcases List.mem_cons.mp left with rfl | left
      · exact Or.inr (by simp [Gather.published])
      · exact Or.inl (by simpa [Gather.published, unsent] using left)
    · exact Or.inr told

theorem Underway.take (underway : Underway members log who gather) {rest : List Nat}
    (next : gather.missing = peer :: rest) (began : .began peer gather.epoch entry ∈ log) :
    Underway members log who
      { gather with missing := rest, gathered := gather.gathered ++ [entry] } := by
  have missing := next.symm.trans underway.missing
  have room : gather.gathered.length < members := by
    rcases Nat.lt_or_ge gather.gathered.length members with less | more
    · exact less
    · rw [Nat.sub_eq_zero_of_le more] at missing
      cases missing
  rw [show members - gather.gathered.length = members - (gather.gathered.length + 1) + 1 by omega,
    List.range'_succ, List.cons.injEq] at missing
  obtain ⟨rfl, rfl⟩ := missing
  refine ⟨underway.rank, underway.began, underway.last, underway.unsent, underway.told, ?_, ?_,
    fun peer found known => ?_⟩
  · rw [List.length_append]
    exact room
  · simp
  · simp only [List.getElem?_append, List.getElem?_singleton] at known
    split at known
    · exact underway.entries peer found known
    · split at known
      · obtain rfl := Option.some.inj known
        obtain rfl : peer = gather.gathered.length := by omega
        exact began
      · cases known

theorem Underway.enterOwn (underway : Underway members log who gather) :
    Underway members log who gather.enterOwn := by
  unfold Gather.enterOwn
  split
  · exact underway
  · next peer rest missing =>
    split
    · next here =>
      refine underway.take missing ?_
      rw [here, underway.rank]
      exact underway.began
    · exact underway

theorem Underway.collected (underway : Underway members log who gather)
    (asks : gather.move = .collect peer) (began : .began peer gather.epoch entry ∈ log) :
    Underway members log who (gather.collected entry) := by
  obtain ⟨-, rest, missing⟩ := missing_of_collect asks
  rw [Gather.collected, missing]
  exact underway.enterOwn.take missing (gather.epoch_enterOwn.symm ▸ began)

theorem Underway.publish_lt (underway : Underway members log who gather)
    (asks : gather.move = .publish peer) : peer < members ∧ peer ≠ who := by
  obtain ⟨rest, unsent⟩ := unsent_of_publish asks
  exact underway.unsent peer (unsent ▸ List.mem_cons_self)

theorem Underway.collect_lt (underway : Underway members log who gather)
    (asks : gather.move = .collect peer) : peer < members := by
  obtain ⟨-, rest, missing⟩ := missing_of_collect asks
  have found : peer ∈ gather.enterOwn.missing := missing ▸ List.mem_cons_self
  have entered := underway.enterOwn
  rw [entered.missing, List.mem_range'_1] at found
  omega

theorem Underway.collect_ne (underway : Underway members log who gather)
    (asks : gather.move = .collect peer) : peer ≠ who := by
  obtain ⟨-, rest, missing⟩ := missing_of_collect asks
  have once : gather.missing.Nodup := underway.missing ▸ List.nodup_range'
  rintro rfl
  unfold Gather.enterOwn at missing
  split at missing
  · next none =>
    rw [none] at missing
    cases missing
  · next first others whole =>
    rw [whole] at once
    split at missing
    · next here =>
      -- Its own entry is in, and it is missing only once.
      obtain rfl := here.trans underway.rank
      have same : others = first :: rest := missing
      exact (List.nodup_cons.mp once).1 (same ▸ List.mem_cons_self)
    · next other =>
      obtain rfl := (List.cons.inj (whole.symm.trans missing)).1
      exact other underway.rank.symm

theorem Underway.result (underway : Underway members log who gather)
    (asks : gather.move = .finish) :
    gather.result.length = members ∧ ∀ peer, peer < members →
      ∃ own, gather.result[peer]? = some own ∧ .began peer gather.epoch own ∈ log := by
  obtain ⟨-, nothing⟩ := nothing_of_finish asks
  have entered := underway.enterOwn
  have full : gather.result.length = members := by
    have missing := entered.missing
    have room := entered.room
    rw [nothing] at missing
    have none := List.range'_eq_nil_iff.mp missing.symm
    unfold Gather.result
    omega
  refine ⟨full, fun peer inside => ⟨_, List.getElem?_eq_getElem (full ▸ inside), ?_⟩⟩
  exact gather.epoch_enterOwn ▸ entered.entries peer _ (List.getElem?_eq_getElem (full ▸ inside))

end underway

def Call.Grounded (members : Nat) (log : List Event) (who : Nat) : Call → Prop
  | .idle => True
  | .opened epoch own => .began who epoch own ∈ log ∧ (epochs who log).getLast? = some epoch
  | .going gather => Underway members log who gather

theorem Call.lacks_of_idle {calls : Nat → Call} {who source target : Nat} {epoch : UInt32}
    (lacks : (Function.update calls who .idle target).Lacks source epoch) :
    (calls target).Lacks source epoch := by
  by_cases here : target = who
  · subst here
    rw [Function.update_self] at lacks
    exact lacks.elim
  · rwa [Function.update_of_ne here] at lacks

theorem Call.Grounded.mono {members who : Nat} {log later : List Event} {call : Call}
    (grounded : call.Grounded members log who) (grows : log ⊆ later)
    (same : epochs who later = epochs who log) : call.Grounded members later who := by
  cases call with
  | idle => trivial
  | opened epoch own => exact ⟨grows grounded.1, same ▸ grounded.2⟩
  | going gather => exact Underway.mono grounded grows same

/-- What is on its way was passed to a call of its epoch by the member that it comes from. -/
def Sincere (log : List Event) (mesh : Mesh StageFingerprint) : Prop :=
  ∀ who, ∀ envelope ∈ mesh.held who,
    ∃ epoch, envelope.tag = .fingerprint epoch ∧ .began envelope.source epoch envelope.payload ∈ log

theorem Sincere.mono {log later : List Event} {mesh next : Mesh StageFingerprint}
    (sincere : Sincere log mesh) (grows : log ⊆ later)
    (fewer : ∀ who, next.held who ⊆ mesh.held who) : Sincere later next := by
  intro who envelope held
  obtain ⟨epoch, tag, began⟩ := sincere who envelope (fewer who held)
  exact ⟨epoch, tag, grows began⟩

structure Sound (members : Nat) (log : List Event) (calls : Nat → Call)
    (mesh : Mesh StageFingerprint) : Prop where
  size : mesh.size = members
  opened : mesh.AllOpen
  inside : ∀ who, members ≤ who → calls who = .idle
  grounded : ∀ who, (calls who).Grounded members log who
  sincere : Sincere log mesh

section sound

variable {members who peer : Nat} {log later : List Event} {calls : Nat → Call}
  {mesh next : Mesh StageFingerprint} {gather : Gather} {call : Call}

theorem Sound.put (sound : Sound members log calls mesh) (inside : who < members)
    (grows : log ⊆ later) (others : ∀ other, other ≠ who → epochs other later = epochs other log)
    (size : next.size = mesh.size) (opened : next.AllOpen)
    (grounded : call.Grounded members later who) (sincere : Sincere later next) :
    Sound members later (Function.update calls who call) next where
  size := size.trans sound.size
  opened := opened
  inside other outside := by
    rw [Function.update_of_ne (by omega), sound.inside other outside]
  grounded other := by
    by_cases here : other = who
    · subst here
      rw [Function.update_self]
      exact grounded
    · rw [Function.update_of_ne here]
      exact (sound.grounded other).mono grows (others other here)
  sincere := sincere

theorem Sound.lt (sound : Sound members log calls mesh) (busy : calls who ≠ .idle) :
    who < members := by
  rcases Nat.lt_or_ge who members with inside | outside
  · exact inside
  · exact absurd (sound.inside who outside) busy

theorem Sound.underway (sound : Sound members log calls mesh) (going : calls who = .going gather) :
    who < members ∧ Underway members log who gather := by
  refine ⟨sound.lt (by simp [going]), ?_⟩
  have grounded := sound.grounded who
  rwa [going] at grounded

theorem Sound.receive (sound : Sound members log calls mesh) {source : Nat} {epoch : UInt32}
    {answer : Option StageFingerprint}
    (received : mesh.receive who source (.fingerprint epoch) = .ok (answer, next)) :
    next.size = mesh.size ∧ next.AllOpen ∧ Sincere log next ∧
      ∀ entry, answer = some entry → .began source epoch entry ∈ log := by
  obtain ⟨fewer, brought⟩ := Mesh.held_receive received
  refine ⟨?_, ?_, sound.sincere.mono (List.Subset.refl _) fewer, fun entry found => ?_⟩
  · rw [Mesh.receive_eq received, Mesh.size_update]
  · rw [Mesh.receive_eq received]
    exact sound.opened.update fun endpoint _ => endpoint.claim_isOpen ..
  · obtain ⟨other, tag, began⟩ := sound.sincere who _ (brought entry found)
    obtain rfl := (Tag.mk.inj tag).1
    exact began

theorem Past.sound (past : Past members log calls mesh) : Sound members log calls mesh := by
  induction past with
  | start =>
      refine ⟨Mesh.size_make members, Mesh.allOpen_make members, fun _ _ => rfl, fun _ => trivial,
        fun who envelope held => ?_⟩
      rw [Mesh.held_make] at held
      cases held
  | @begin log calls mesh who epoch own _ inside _ _ sound =>
      have grows : log ⊆ log ++ [.began who epoch own] := List.subset_append_left ..
      refine sound.put inside grows (fun other apart => ?_) rfl sound.opened ⟨by simp, ?_⟩
        (sound.sincere.mono grows fun _ => List.Subset.refl _)
      · simp [epochs, Event.begins?, Ne.symm apart]
      · simp [epochs, Event.begins?]
  | @drop log calls mesh epoch own who _ opened sound =>
      have grounded := sound.grounded who
      rw [opened] at grounded
      have inside := sound.lt (by simp [opened] : calls who ≠ .idle)
      obtain ⟨size, allOpen, -⟩ := Mesh.discard_held sound.opened who (·.isStale epoch)
      exact sound.put inside (List.Subset.refl _) (fun _ _ => rfl) size allOpen
        (.start grounded.1 grounded.2) (sound.sincere.mono (List.Subset.refl _) fun other =>
          Mesh.held_discard_subset mesh who other _)
  | @publish log calls mesh next gather peer who _ going asks sent sound =>
      obtain ⟨inside, underway⟩ := sound.underway going
      have grows : log ⊆ log ++ [.published who peer gather.epoch] := List.subset_append_left ..
      refine sound.put inside grows (fun _ _ => epochs_calm rfl log) ?_ ?_
        (underway.published asks) fun other envelope held => ?_
      · rw [Mesh.send_eq sent, Mesh.size_update]
      · rw [Mesh.send_eq sent]
        exact sound.opened.update fun _ _ => rfl
      · rcases Mesh.mem_held_send sent held with old | ⟨-, rfl⟩
        · exact sound.sincere.mono grows (fun _ => List.Subset.refl _) other envelope old
        · exact ⟨gather.epoch, rfl, underway.rank ▸ grows underway.began⟩
  | @collect log calls mesh next gather peer entry who _ going asks found sound =>
      obtain ⟨inside, underway⟩ := sound.underway going
      obtain ⟨size, allOpen, sincere, began⟩ := sound.receive found
      exact sound.put inside (List.Subset.refl _) (fun _ _ => rfl) size allOpen
        (underway.collected asks (began entry rfl)) sincere
  | look who _ _ _ missed sound =>
      obtain ⟨size, allOpen, sincere, -⟩ := sound.receive missed
      exact ⟨size.trans sound.size, allOpen, sound.inside, sound.grounded, sincere⟩
  | @expire log calls mesh next gather peer who _ going _ missed sound =>
      obtain ⟨size, allOpen, sincere, -⟩ := sound.receive missed
      have grows : log ⊆ log ++ [.failed who gather.epoch] := List.subset_append_left ..
      exact sound.put (sound.underway going).1 grows
        (fun _ _ => epochs_calm rfl log) size allOpen trivial
        (sincere.mono grows fun _ => List.Subset.refl _)
  | @finish log calls mesh gather who _ going _ sound =>
      have grows : log ⊆ log ++ [.returned who gather.epoch gather.result] :=
        List.subset_append_left ..
      exact sound.put (sound.underway going).1 grows
        (fun _ _ => epochs_calm rfl log) rfl sound.opened trivial
        (sound.sincere.mono grows fun _ => List.Subset.refl _)

/-- Whoever returns has told everybody else. -/
theorem Past.told {epoch : UInt32} {entries : List StageFingerprint}
    (past : Past members log calls mesh) (returned : .returned who epoch entries ∈ log)
    (inside : peer < members) (apart : peer ≠ who) : .published who peer epoch ∈ log := by
  induction past with
  | start => cases returned
  | drop _ _ _ ih | collect _ _ _ _ _ ih | look _ _ _ _ _ ih => exact ih returned
  | begin _ _ _ _ _ _ _ ih | publish _ _ _ _ _ ih | expire _ _ _ _ _ ih =>
      exact List.mem_append_left _ (ih (by simpa using returned))
  | finish member past going asks ih =>
      rcases List.mem_append.mp returned with old | new
      · exact List.mem_append_left _ (ih old)
      · obtain ⟨rfl, rfl, -⟩ := Event.returned.inj (List.mem_singleton.mp new)
        rcases (past.sound.underway going).2.told peer inside apart with unsent | told
        · rw [(nothing_of_finish asks).1] at unsent
          cases unsent
        · exact List.mem_append_left _ told

/-- Whoever returns has seen everybody begin. -/
theorem Past.returned (past : Past members log calls mesh) :
    ∀ before after who epoch entries, log = before ++ .returned who epoch entries :: after →
      entries.length = members ∧ ∀ peer, peer < members →
        ∃ own, entries[peer]? = some own ∧ .began peer epoch own ∈ before := by
  induction past with
  | start => exact fun before after who epoch entries split => by simp at split
  | drop _ _ _ ih | collect _ _ _ _ _ ih | look _ _ _ _ _ ih => exact ih
  | begin _ _ _ _ _ _ _ ih | publish _ _ _ _ _ ih | expire _ _ _ _ _ ih =>
      intro before after who epoch entries split
      rcases Course.snoc_split split with ⟨-, last, -⟩ | ⟨rest, -, old⟩
      · cases last
      · exact ih before rest who epoch entries old
  | finish who past going asks ih =>
      intro before after who epoch entries split
      rcases Course.snoc_split split with ⟨rfl, last, -⟩ | ⟨rest, -, old⟩
      · obtain ⟨rfl, rfl, rfl⟩ := Event.returned.inj last
        exact (past.sound.underway going).2.result asks
      · exact ih before rest who epoch entries old

end sound

section order

variable {members who peer : Nat} {base epoch : UInt32} {log : List Event} {calls : Nat → Call}
  {mesh next : Mesh StageFingerprint} {gather : Gather} {own other : StageFingerprint}

theorem mem_epochs : epoch ∈ epochs who log ↔ ∃ own, .began who epoch own ∈ log := by
  unfold epochs
  rw [List.mem_filterMap]
  constructor
  · rintro ⟨event, found, begins⟩
    cases event with
    | began member begun own =>
        simp only [Event.begins?, Option.ite_none_right_eq_some, Option.some.injEq] at begins
        obtain ⟨rfl, rfl⟩ := begins
        exact ⟨own, found⟩
    | published | returned | failed => cases begins
  · rintro ⟨own, found⟩
    exact ⟨_, found, by simp [Event.begins?]⟩

theorem epochs_began (log : List Event) (member : Nat) (epoch : UInt32) (own : StageFingerprint) :
    epochs who (log ++ [.began member epoch own]) =
      epochs who log ++ if member = who then [epoch] else [] := by
  unfold epochs
  by_cases here : member = who <;> simp [Event.begins?, here]

theorem Within.front {more : List Event} (window : Within base (log ++ more)) : Within base log :=
  fun who epoch own began => window who epoch own (List.mem_append_left _ began)

theorem before_of_ascending (window : Within base (log ++ [.began who epoch own]))
    (ascending : (epochs who log).Pairwise EpochBefore)
    (later : ∀ last ∈ (epochs who log).getLast?, EpochBefore last epoch) :
    ∀ earlier ∈ epochs who log, EpochBefore earlier epoch := by
  intro earlier found
  have near : ∀ begun ∈ epochs who log, (begun - base).toNat < 2 ^ 31 := by
    intro begun found
    obtain ⟨own, began⟩ := mem_epochs.mp found
    exact window.front who begun own began
  have nearToo : (epoch - base).toNat < 2 ^ 31 := window who epoch own (by simp)
  rcases List.eq_nil_or_concat (epochs who log) with none | ⟨front, last, split⟩
  · rw [none] at found
    cases found
  · rw [List.concat_eq_append] at split
    rw [split] at found ascending near later
    have ends := later last (by simp)
    rcases List.mem_append.mp found with front | back
    · have before := (List.pairwise_append.mp ascending).2.2 earlier front last (by simp)
      have nearEarlier := near earlier found
      have nearLast := near last (by simp)
      rw [epochBefore_iff nearEarlier nearLast] at before
      rw [epochBefore_iff nearLast nearToo] at ends
      exact (epochBefore_iff nearEarlier nearToo).mpr (Nat.lt_trans before ends)
    · obtain rfl := List.mem_singleton.mp back
      exact ends

/-- The epochs of a member go up. -/
theorem Past.ascending (past : Past members log calls mesh) (window : Within base log)
    (who : Nat) : (epochs who log).Pairwise EpochBefore := by
  induction past with
  | start => exact List.Pairwise.nil
  | drop _ _ _ ih | collect _ _ _ _ _ ih | look _ _ _ _ _ ih => exact ih window
  | publish _ _ _ _ _ ih | expire _ _ _ _ _ ih | finish _ _ _ _ ih =>
      rw [epochs_calm rfl]
      exact ih window.front
  | begin member epoch own _ _ _ later ih =>
      rw [epochs_began]
      split
      · next here =>
        subst here
        exact List.pairwise_append.mpr ⟨ih window.front, List.pairwise_singleton _ _,
          fun earlier found last same => List.mem_singleton.mp same ▸
            before_of_ascending window (ih window.front) later earlier found⟩
      · simpa using ih window.front

theorem Past.once (past : Past members log calls mesh) (window : Within base log)
    (first : .began who epoch own ∈ log) (second : .began who epoch other ∈ log) :
    own = other := by
  induction past with
  | start => cases first
  | drop _ _ _ ih | collect _ _ _ _ _ ih | look _ _ _ _ _ ih => exact ih window first second
  | publish _ _ _ _ _ ih | expire _ _ _ _ _ ih | finish _ _ _ _ ih =>
      exact ih window.front (by simpa using first) (by simpa using second)
  | @begin log _ _ member begun passed past _ _ later ih =>
      have fresh := before_of_ascending window (past.ascending window.front member) later
      -- What has begun before has another epoch.
      have apart : ∀ found, .began member begun found ∉ log := fun found began =>
        (fresh begun (mem_epochs.mpr ⟨found, began⟩)).ne rfl
      rcases List.mem_append.mp first with old | new <;>
        rcases List.mem_append.mp second with oldToo | newToo
      · exact ih window.front old oldToo
      · obtain ⟨rfl, rfl, rfl⟩ := Event.began.inj (List.mem_singleton.mp newToo)
        exact absurd old (apart own)
      · obtain ⟨rfl, rfl, rfl⟩ := Event.began.inj (List.mem_singleton.mp new)
        exact absurd oldToo (apart other)
      · have same := (List.mem_singleton.mp new).trans (List.mem_singleton.mp newToo).symm
        exact (Event.began.inj same).2.2

theorem Underway.epoch_mem (underway : Underway members log who gather) :
    gather.epoch ∈ epochs who log :=
  mem_epochs.mpr ⟨_, underway.began⟩

theorem Underway.lacks_of_collected (underway : Underway members log who gather) {source : Nat}
    {entry : StageFingerprint} (asks : gather.move = .collect peer)
    (lacks : (Call.going (gather.collected entry)).Lacks source epoch) :
    (Call.going gather).Lacks source epoch ∧ source ≠ peer := by
  obtain ⟨-, rest, missing⟩ := missing_of_collect asks
  obtain ⟨same, left⟩ := lacks
  rw [Gather.collected, missing] at left
  have once : gather.enterOwn.missing.Nodup :=
    underway.enterOwn.missing ▸ List.nodup_range'
  rw [missing] at once
  refine ⟨⟨(gather.epoch_enterOwn).symm.trans same, ?_⟩, ?_⟩
  · exact gather.missing_enterOwn (missing ▸ List.mem_cons_of_mem _ left)
  · rintro rfl
    exact (List.nodup_cons.mp once).1 left

namespace Awaited

variable {source target : Nat} {begun : UInt32}

theorem of_began (past : Past members log calls mesh)
    (window : Within base (log ++ [.began who begun own]))
    (later : ∀ last ∈ (epochs who log).getLast?, EpochBefore last begun)
    (awaited : Awaited (log ++ [.began who begun own])
      (Function.update calls who (.opened begun own)) source target epoch) :
    Awaited log calls source target epoch := by
  rw [Awaited, epochs_began] at awaited
  by_cases here : target = who
  · subst here
    rw [if_pos rfl, Function.update_self] at awaited
    -- The call that is beginning comes after all others.
    rcases awaited with before | rfl
    · exact Or.inl fun earlier found => before earlier (List.mem_append_left _ found)
    · exact Or.inl (before_of_ascending window (past.ascending window.front target) later)
  · rw [if_neg (Ne.symm here), List.append_nil, Function.update_of_ne here] at awaited
    exact awaited

/-- What a call drops as it begins is of earlier epochs, and nobody awaits it. -/
theorem of_dropped (past : Past members log calls mesh) (opened : calls who = .opened begun own)
    (awaited : Awaited log (Function.update calls who (.going (.start who members begun own)))
      source target epoch) :
    Awaited log calls source target epoch ∧ (target = who → ¬ EpochBefore epoch begun) := by
  by_cases here : target = who
  · subst here
    rw [Awaited, Function.update_self] at awaited
    have grounded := past.sound.grounded target
    rw [opened] at grounded
    rcases awaited with before | ⟨rfl, -⟩
    · exact ⟨Or.inl before,
        fun _ => (before begun (mem_epochs.mpr ⟨own, grounded.1⟩)).not_symm⟩
    · refine ⟨Or.inr ?_, fun _ before => before.ne rfl⟩
      rw [opened]
      rfl
  · rw [Awaited, Function.update_of_ne here] at awaited
    exact ⟨awaited, fun same => absurd same here⟩

theorem of_published (going : calls who = .going gather)
    (awaited : Awaited (log ++ [.published who peer gather.epoch])
      (Function.update calls who (.going gather.published)) source target epoch) :
    Awaited log calls source target epoch := by
  rw [Awaited, epochs_calm rfl] at awaited
  by_cases here : target = who
  · subst here
    rw [Function.update_self] at awaited
    rw [Awaited, going]
    exact awaited
  · rwa [Function.update_of_ne here] at awaited

/-- What a call has just got it awaits no more. -/
theorem of_collected {entry : StageFingerprint} (past : Past members log calls mesh)
    (going : calls who = .going gather) (asks : gather.move = .collect peer)
    (awaited : Awaited log (Function.update calls who (.going (gather.collected entry)))
      source target epoch) :
    Awaited log calls source target epoch ∧
      (target = who → ¬ (source = peer ∧ Tag.fingerprint epoch = gather.tag)) := by
  by_cases here : target = who
  · subst here
    have underway := (past.sound.underway going).2
    rw [Awaited, Function.update_self] at awaited
    rcases awaited with before | lacks
    · refine ⟨Or.inl before, fun _ same => ?_⟩
      exact (before _ underway.epoch_mem).ne (Tag.mk.inj same.2).1.symm
    · obtain ⟨lacked, different⟩ := underway.lacks_of_collected asks lacks
      exact ⟨Or.inr (going ▸ lacked), fun _ same => different same.1⟩
  · rw [Awaited, Function.update_of_ne here] at awaited
    exact ⟨awaited, fun same => absurd same here⟩

end Awaited

/-- What is published stays until the call that it is for has got it. -/
theorem Past.kept (past : Past members log calls mesh) (window : Within base log) :
    ∀ source target epoch, .published source target epoch ∈ log →
      Awaited log calls source target epoch →
        ∃ own, ⟨source, .fingerprint epoch, own⟩ ∈ mesh.held target := by
  induction past with
  | start => exact fun source target epoch published => by cases published
  | @begin log calls mesh who begun own past _ _ later ih =>
      intro source target epoch published awaited
      exact ih window.front source target epoch (by simpa using published)
        (awaited.of_began past window later)
  | @drop log calls mesh begun own who past opened ih =>
      intro source target epoch published awaited
      obtain ⟨before, fresh⟩ := awaited.of_dropped past opened
      obtain ⟨payload, held⟩ := ih window source target epoch published before
      refine ⟨payload, ?_⟩
      rw [Mesh.held_discard]
      split
      · next here =>
        refine List.mem_filter.mpr ⟨held, ?_⟩
        rw [Bool.not_eq_true', ← Bool.not_eq_true, isStale_iff_before]
        exact fresh here
      · exact held
  | @publish log calls mesh next gather peer who past going asks sent ih =>
      intro source target epoch published awaited
      rw [Mesh.held_send sent]
      rcases List.mem_append.mp published with old | new
      · obtain ⟨own, held⟩ := ih window.front source target epoch old (awaited.of_published going)
        exact ⟨own, List.mem_append_left _ held⟩
      · obtain ⟨rfl, rfl, rfl⟩ := Event.published.inj (List.mem_singleton.mp new)
        rw [(past.sound.underway going).2.rank, if_pos rfl]
        exact ⟨gather.own, List.mem_append_right _ (List.mem_singleton.mpr rfl)⟩
  | @collect log calls mesh next gather peer entry who past going asks found ih =>
      intro source target epoch published awaited
      obtain ⟨before, apart⟩ := awaited.of_collected past going asks
      obtain ⟨own, held⟩ := ih window source target epoch published before
      refine ⟨own, Mesh.mem_held_receive found held fun same => ?_⟩
      rw [← Bool.not_eq_true, Envelope.answers_iff]
      exact apart (same.trans (past.sound.underway going).2.rank)
  | look _ _ _ _ missed ih =>
      intro source target epoch published awaited
      rw [(Mesh.held_miss missed).1]
      exact ih window source target epoch published awaited
  | @expire log calls mesh next gather peer who _ going asks missed ih =>
      intro source target epoch published awaited
      rw [(Mesh.held_miss missed).1]
      rw [Awaited, epochs_calm rfl] at awaited
      exact ih window.front source target epoch (by simpa using published)
        (awaited.imp_right Call.lacks_of_idle)
  | @finish log calls mesh gather who _ going asks ih =>
      intro source target epoch published awaited
      rw [Awaited, epochs_calm rfl] at awaited
      exact ih window.front source target epoch (by simpa using published)
        (awaited.imp_right Call.lacks_of_idle)

/-- Whatever the interleaving and whichever receives give up. -/
theorem Past.faithful (past : Past members log calls mesh) (window : Within base log) :
    Faithful members log calls mesh where
  returned := past.returned
  once who epoch own other first second := past.once window first second
  agreed who other epoch entries others first second := by
    obtain ⟨before, after, split⟩ := List.append_of_mem first
    obtain ⟨beforeToo, afterToo, splitToo⟩ := List.append_of_mem second
    obtain ⟨length, own⟩ := past.returned before after who epoch entries split
    obtain ⟨lengthToo, ownToo⟩ := past.returned beforeToo afterToo other epoch others splitToo
    refine List.ext_getElem? fun peer => ?_
    rcases Nat.lt_or_ge peer members with inside | outside
    · obtain ⟨entry, found, began⟩ := own peer inside
      obtain ⟨entryToo, foundToo, beganToo⟩ := ownToo peer inside
      rw [found, foundToo]
      exact congrArg some (past.once window (split ▸ List.mem_append_left _ began)
        (splitToo ▸ List.mem_append_left _ beganToo))
    · rw [List.getElem?_eq_none (length ▸ outside), List.getElem?_eq_none (lengthToo ▸ outside)]
  dropped who epoch own _ envelope held fresh := by
    rw [Mesh.held_discard, if_pos rfl, List.mem_filter]
    refine ⟨held, ?_⟩
    have current : ¬ EpochBefore envelope.tag.epoch epoch := by
      rcases fresh with same | later
      · exact fun before => before.ne same
      · exact later.not_symm
    rw [Bool.not_eq_true', ← Bool.not_eq_true, isStale_iff_before]
    exact current
  kept := past.kept window

/-- A member gives its first call up when nobody answers. The epoch after that is the first around
the circle; the other member comes to it with the leftovers of the first call in its mailbox. -/
theorem faithful_around : ∃ log calls mesh, log = [.began 0 0xffffffff ⟨0, 0, .make 1 0⟩,
      .published 0 1 0xffffffff, .failed 0 0xffffffff, .began 0 0 ⟨0, 0, .make 2 0⟩,
      .published 0 1 0, .began 1 0 ⟨0, 1, .make 3 0⟩, .published 1 0 0,
      .returned 1 0 [⟨0, 0, .make 2 0⟩, ⟨0, 1, .make 3 0⟩],
      .returned 0 0 [⟨0, 0, .make 2 0⟩, ⟨0, 1, .make 3 0⟩]] ∧
    Past 2 log calls mesh ∧ Within 0xffffffff log ∧ Faithful 2 log calls mesh := by
  have begun := (Past.start : Past 2 [] _ _).begin 0 0xffffffff ⟨0, 0, .make 1 0⟩ (by decide) rfl
    (fun _ none => nomatch none)
  have failed := ((begun.drop 0 rfl).publish 0 rfl rfl rfl).expire 0 rfl rfl rfl
  have again := failed.begin 0 0 ⟨0, 0, .make 2 0⟩ (by decide) rfl
    (fun _ last => Option.some.inj last ▸ (by decide : EpochBefore 0xffffffff 0))
  have published := (again.drop 0 rfl).publish 0 rfl rfl rfl
  have joined := published.begin 1 0 ⟨0, 1, .make 3 0⟩ (by decide) rfl
    (fun _ none => nomatch none)
  have answered := (((joined.drop 1 rfl).publish 1 rfl rfl rfl).collect 1 rfl rfl rfl).finish 1
    rfl rfl
  have returned := (answered.collect 0 rfl rfl rfl).finish 0 rfl rfl
  refine ⟨_, _, _, rfl, returned, ?window, returned.faithful ?window⟩
  intro who epoch own began
  simp only [List.mem_cons, Event.began.injEq, reduceCtorEq, List.not_mem_nil, or_false,
    false_or] at began
  rcases began with ⟨-, rfl, -⟩ | ⟨-, rfl, -⟩ | ⟨-, rfl, -⟩ <;> decide

end order

section alone

variable {members who peer : Nat} {epoch : UInt32} {log : List Event} {calls : Nat → Call}
  {mesh : Mesh StageFingerprint} {gather : Gather} {own : StageFingerprint} {limit : Duration}

theorem update_idle (idle : calls who = .idle) (call : Call) :
    Function.update (Function.update calls who call) who .idle = calls := by
  rw [Function.update_idem, ← idle, Function.update_eq_self]

theorem Past.returning (past : Past members log (Function.update calls who (.going gather)) mesh)
    (idle : calls who = .idle) (asks : gather.move = .finish) :
    ∃ events, Past members (log ++ events) calls mesh ∧
      ∀ entries, (.ok gather.result : Except Fault (List StageFingerprint)) = .ok entries →
        .returned who gather.epoch entries ∈ events := by
  have after := past.finish who (Function.update_self ..) asks
  rw [update_idle idle] at after
  exact ⟨_, after, fun entries same => by simp [Except.ok.inj same]⟩

theorem Past.run (past : Past members log (Function.update calls who (.going gather)) mesh)
    (idle : calls who = .idle) {steps : Nat}
    (enough : gather.unsent.length + gather.missing.length ≤ steps) :
    ∃ events, Past members (log ++ events) calls (run limit steps mesh gather).1 ∧
      ∀ entries, (run limit steps mesh gather).2 = .ok entries →
        .returned who gather.epoch entries ∈ events := by
  induction steps generalizing gather mesh log with
  | zero =>
      have unsent : gather.unsent = [] := List.length_eq_zero_iff.mp (by omega)
      have missing : gather.missing = [] := List.length_eq_zero_iff.mp (by omega)
      have entered := gather.missing_enterOwn
      rw [missing, List.subset_nil] at entered
      exact past.returning idle (by rw [move, unsent, entered])
  | succ steps ih =>
      have going : Function.update calls who (.going gather) who = .going gather :=
        Function.update_self ..
      obtain ⟨inside, underway⟩ := past.sound.underway going
      rw [Gather.run]
      cases asks : gather.move with
      | finish => exact past.returning idle asks
      | publish peer =>
          have toPeer : peer < mesh.size := past.sound.size ▸ (underway.publish_lt asks).1
          obtain ⟨next, sent, -⟩ :=
            Mesh.send_ok past.sound.opened toPeer gather.rank gather.tag gather.own
          have after := past.publish who going asks sent
          rw [Function.update_idem] at after
          have fewer := length_published asks
          have same : gather.published.missing = gather.missing := rfl
          obtain ⟨events, reached, told⟩ := ih after (by rw [same]; omega)
          simp only [sent]
          rw [List.append_assoc] at reached
          exact ⟨_, reached, fun entries ok => List.mem_append_right _ (told entries ok)⟩
      | collect peer =>
          have fromPeer : peer < mesh.size := past.sound.size ▸ underway.collect_lt asks
          rcases Mesh.receive_split fromPeer gather.rank gather.tag with
            ⟨entry, next, _, _, found, -⟩ | ⟨next, missed, -⟩
          · have after := past.collect who going asks found
            rw [Function.update_idem] at after
            obtain ⟨same, fewer⟩ := length_collected asks entry
            obtain ⟨events, reached, told⟩ := ih after (by rw [same]; omega)
            simp only [found]
            refine ⟨events, reached, fun entries ok => ?_⟩
            have returned := told entries ok
            rwa [Gather.collected, epoch_enterOwn] at returned
          · have after := past.expire who going asks missed
            rw [update_idle idle] at after
            simp only [missed]
            exact ⟨_, after, nofun⟩

/-- The call of a member while nobody else is at work is one of these calls. -/
theorem Past.call_alone (past : Past members log calls mesh) (inside : who < members)
    (idle : calls who = .idle) (later : ∀ last ∈ (epochs who log).getLast?, EpochBefore last epoch) :
    ∃ events, Past members (log ++ .began who epoch own :: events) calls
        (alone mesh who epoch own limit).1 ∧
      ∀ entries, (alone mesh who epoch own limit).2 = .ok entries →
        .returned who epoch entries ∈ events := by
  have begun := past.begin who epoch own inside idle later
  have going := begun.drop who (Function.update_self ..)
  rw [Function.update_idem] at going
  have same : alone mesh who epoch own limit = Gather.run limit (2 * members)
      (mesh.discard who (·.isStale epoch)).2 (.start who members epoch own) := by
    unfold alone
    simp only [going.sound.size]
  have enough : (Gather.start who members epoch own).unsent.length +
      (Gather.start who members epoch own).missing.length ≤ 2 * members := by
    have unsent := List.length_filter_le (fun peer => peer != who) (List.range members)
    rw [List.length_range] at unsent
    simp only [Gather.start, List.length_range]
    omega
  rw [same]
  obtain ⟨events, reached, told⟩ := going.run idle enough
  rw [List.append_assoc] at reached
  exact ⟨events, reached, told⟩

end alone

end Gather
end PipelineTraining

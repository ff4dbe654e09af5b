import PipelineTraining.Transport.Mesh

/-!
What a member can still be given: the mailbox and behind it what has arrived. A
send adds to it, a receive takes one envelope that answers, dropping what is stale
takes nothing else.
-/

namespace PipelineTraining

variable {α : Type}

theorem Envelope.answers_iff {envelope : Envelope α} {source : Nat} {tag : Tag} :
    envelope.answers source tag = true ↔ envelope.source = source ∧ envelope.tag = tag := by
  simp [answers]

namespace Endpoint

variable {endpoint : Endpoint α} {envelope : Envelope α} {items : List (Envelope α)}
  {source : Nat} {tag : Tag}

def held (endpoint : Endpoint α) : List (Envelope α) :=
  endpoint.mailbox ++ endpoint.arrived

theorem held_deliver (endpoint : Endpoint α) (envelope : Envelope α) :
    (endpoint.deliver envelope).held = endpoint.held ++ [envelope] :=
  (List.append_assoc ..).symm

theorem held_discard (endpoint : Endpoint α) (stale : Tag → Bool) :
    (endpoint.discard stale).2.held =
      endpoint.held.filter fun envelope => !stale envelope.tag :=
  List.append_nil _

theorem pick_split {before behind : List (Envelope α)} {payload : α}
    (picked : pick source tag items = some (before, payload, behind)) :
    items = before ++ ⟨source, tag, payload⟩ :: behind ∧
      ∀ envelope ∈ before, envelope.answers source tag = false := by
  induction items generalizing before with
  | nil => cases picked
  | cons first rest ih =>
      unfold pick at picked
      by_cases here : first.answers source tag = true
      · rw [if_pos here] at picked
        obtain ⟨rfl, rfl, rfl⟩ := picked
        obtain ⟨rfl, rfl⟩ := Envelope.answers_iff.mp here
        exact ⟨rfl, fun _ member => by cases member⟩
      · rw [if_neg here] at picked
        cases later : pick source tag rest with
        | none => simp [later] at picked
        | some found =>
            obtain ⟨front, value, back⟩ := found
            simp only [later, Option.some.injEq, Prod.mk.injEq] at picked
            obtain ⟨rfl, rfl, rfl⟩ := picked
            obtain ⟨split, unlike⟩ := ih later
            refine ⟨congrArg (first :: ·) split, fun envelope member => ?_⟩
            rcases List.mem_cons.mp member with rfl | member
            · exact Bool.not_eq_true _ ▸ here
            · exact unlike envelope member

theorem pick_none (picked : pick source tag items = none) :
    ∀ envelope ∈ items, envelope.answers source tag = false := by
  induction items with
  | nil =>
      intro envelope member
      cases member
  | cons first rest ih =>
      unfold pick at picked
      by_cases here : first.answers source tag = true
      · simp [here] at picked
      · rw [if_neg here] at picked
        have later : pick source tag rest = none := by
          cases found : pick source tag rest with
          | none => rfl
          | some parts => simp [found] at picked
        intro envelope member
        rcases List.mem_cons.mp member with rfl | member
        · exact Bool.not_eq_true _ ▸ here
        · exact ih later envelope member

/-- A claim takes out the first envelope that answers and leaves the rest in order. -/
theorem claim_split (endpoint : Endpoint α) (source : Nat) (tag : Tag) :
    (∃ payload next front back, endpoint.claim source tag = (some payload, next) ∧
        next.isOpen = endpoint.isOpen ∧ endpoint.held = front ++ ⟨source, tag, payload⟩ :: back ∧
        next.held = front ++ back ∧ ∀ envelope ∈ front, envelope.answers source tag = false) ∨
      (∃ next, endpoint.claim source tag = (none, next) ∧ next.isOpen = endpoint.isOpen ∧
        next.held = endpoint.held ∧
        ∀ envelope ∈ endpoint.held, envelope.answers source tag = false) := by
  unfold claim
  cases waiting : pick source tag endpoint.mailbox with
  | some found =>
      obtain ⟨before, payload, behind⟩ := found
      obtain ⟨split, unlike⟩ := pick_split waiting
      refine Or.inl ⟨payload, _, before, behind ++ endpoint.arrived, rfl, rfl, ?_, ?_, unlike⟩
      · rw [held, split, List.append_assoc, List.cons_append]
      · exact List.append_assoc ..
  | none =>
      cases arriving : pick source tag endpoint.arrived with
      | some found =>
          obtain ⟨before, payload, behind⟩ := found
          obtain ⟨split, unlike⟩ := pick_split arriving
          refine Or.inl ⟨payload, _, endpoint.mailbox ++ before, behind, rfl, rfl, ?_, rfl,
            fun envelope member => ?_⟩
          · rw [held, split, List.append_assoc]
          · rcases List.mem_append.mp member with early | late
            · exact pick_none waiting envelope early
            · exact unlike envelope late
      | none =>
          refine Or.inr ⟨_, rfl, rfl, List.append_nil _, fun envelope member => ?_⟩
          rcases List.mem_append.mp member with early | late
          · exact pick_none waiting envelope early
          · exact pick_none arriving envelope late

theorem claim_isOpen (endpoint : Endpoint α) (source : Nat) (tag : Tag) :
    (endpoint.claim source tag).2.isOpen = endpoint.isOpen := by
  rcases endpoint.claim_split source tag with ⟨_, _, _, _, claimed, stays, _⟩ |
    ⟨_, claimed, stays, _⟩ <;> rw [claimed, stays]

theorem claim_arrived (endpoint : Endpoint α) (source : Nat) (tag : Tag) :
    (endpoint.claim source tag).2.arrived <:+ endpoint.arrived := by
  unfold claim
  cases pick source tag endpoint.mailbox with
  | some found => exact List.suffix_refl _
  | none =>
      cases arriving : pick source tag endpoint.arrived with
      | some found =>
          obtain ⟨before, payload, behind⟩ := found
          rw [(pick_split arriving).1]
          exact (List.suffix_cons ..).trans (List.suffix_append ..)
      | none => exact List.nil_suffix

/-- A claim takes out one envelope that answers, if there is one. -/
theorem claim_cases (endpoint : Endpoint α) (source : Nat) (tag : Tag) :
    (∃ payload next, endpoint.claim source tag = (some payload, next) ∧
        next.isOpen = endpoint.isOpen ∧
        endpoint.held.Perm (⟨source, tag, payload⟩ :: next.held)) ∨
      (∃ next, endpoint.claim source tag = (none, next) ∧ next.held = endpoint.held ∧
        ∀ envelope ∈ endpoint.held, envelope.answers source tag = false) := by
  rcases endpoint.claim_split source tag with ⟨payload, next, front, back, claimed, stays, split,
    rest, _⟩ | ⟨next, claimed, _, same, missing⟩
  · refine Or.inl ⟨payload, next, claimed, stays, ?_⟩
    rw [split, rest]
    exact List.perm_middle
  · exact Or.inr ⟨next, claimed, same, missing⟩

end Endpoint

namespace Mesh

variable {mesh : Mesh α} {member other target source : Nat} {tag : Tag} {payload : α}

def held (mesh : Mesh α) (member : Nat) : List (Envelope α) :=
  (mesh.endpoint? member).elim [] Endpoint.held

def AllOpen (mesh : Mesh α) : Prop :=
  ∀ member endpoint, mesh.endpoint? member = some endpoint → endpoint.isOpen = true

theorem endpoint?_update (mesh : Mesh α) (member other : Nat)
    (change : Endpoint α → Endpoint α) : (mesh.update member change).endpoint? other =
      if member = other then (mesh.endpoint? other).map change else mesh.endpoint? other := by
  unfold endpoint? update
  rw [List.getElem?_modify]
  split <;> simp

theorem size_update (mesh : Mesh α) (member : Nat) (change : Endpoint α → Endpoint α) :
    (mesh.update member change).size = mesh.size :=
  List.length_modify ..

theorem held_update_other (different : member ≠ other) (change : Endpoint α → Endpoint α) :
    (mesh.update member change).held other = mesh.held other := by
  rw [held, endpoint?_update, if_neg different, held]

theorem held_update_self {endpoint : Endpoint α} (known : mesh.endpoint? member = some endpoint)
    (change : Endpoint α → Endpoint α) :
    (mesh.update member change).held member = (change endpoint).held := by
  rw [held, endpoint?_update, if_pos rfl, known]
  rfl

theorem AllOpen.update (opened : mesh.AllOpen) {change : Endpoint α → Endpoint α}
    (kept : ∀ endpoint, mesh.endpoint? member = some endpoint →
      (change endpoint).isOpen = endpoint.isOpen) : (mesh.update member change).AllOpen := by
  intro other endpoint found
  rw [endpoint?_update] at found
  split at found
  · next same =>
    subst same
    obtain ⟨old, known, rfl⟩ := Option.map_eq_some_iff.mp found
    rw [kept old known]
    exact opened member old known
  · exact opened other endpoint found

theorem update_congr {change another : Endpoint α → Endpoint α}
    (same : ∀ endpoint, mesh.endpoint? member = some endpoint → change endpoint = another endpoint) :
    mesh.update member change = mesh.update member another := by
  refine congrArg Mesh.mk (List.ext_getElem? fun place => ?_)
  rw [List.getElem?_modify, List.getElem?_modify]
  split
  · next here =>
    subst here
    exact Option.map_congr fun endpoint known => same endpoint known
  · rfl

theorem update_missing (missing : mesh.endpoint? member = none)
    (change : Endpoint α → Endpoint α) : mesh.update member change = mesh := by
  have idle : mesh.update member change = mesh.update member id :=
    update_congr fun endpoint known => by simp [missing] at known
  rw [idle, update, List.modify_id]

theorem send_eq {next : Mesh α} (sent : mesh.send source target tag payload = .ok next) :
    next = mesh.update target (·.deliver ⟨source, tag, payload⟩) := by
  unfold send at sent
  split at sent
  · cases sent
  · split at sent
    · exact (Except.ok.inj sent).symm
    · cases sent

theorem receiver_of_send {next : Mesh α} (sent : mesh.send source target tag payload = .ok next) :
    ∃ endpoint, mesh.endpoint? target = some endpoint := by
  unfold send at sent
  split at sent
  · cases sent
  · next endpoint known => exact ⟨endpoint, known⟩

theorem inside_of_receive {next : Mesh α} {answer : Option α}
    (received : mesh.receive member source tag = .ok (answer, next)) : source < mesh.size := by
  unfold receive at received
  split at received
  · cases received
  · next inside => exact Nat.not_le.mp inside

theorem receive_eq {next : Mesh α} {answer : Option α}
    (received : mesh.receive member source tag = .ok (answer, next)) :
    next = mesh.update member fun endpoint => (endpoint.claim source tag).2 := by
  unfold receive at received
  split at received
  · cases received
  · split at received
    · next missing =>
      obtain ⟨-, rfl⟩ := Prod.mk.inj (Except.ok.inj received)
      exact (update_missing missing _).symm
    · next endpoint known =>
      obtain ⟨-, rfl⟩ := Prod.mk.inj (Except.ok.inj received)
      refine update_congr fun found same => ?_
      rw [Option.some.inj (known.symm.trans same)]
      rfl

theorem discard_eq (mesh : Mesh α) (member : Nat) (stale : Tag → Bool) :
    (mesh.discard member stale).2 =
      mesh.update member fun endpoint => (endpoint.discard stale).2 := by
  unfold discard
  split
  · next missing => exact (update_missing missing _).symm
  · next endpoint known =>
    refine update_congr fun found same => ?_
    rw [Option.some.inj (known.symm.trans same)]

theorem endpoint?_of_lt (inside : member < mesh.size) :
    ∃ endpoint, mesh.endpoint? member = some endpoint :=
  ⟨_, List.getElem?_eq_getElem inside⟩

theorem send_ok (opened : mesh.AllOpen) (inside : target < mesh.size) (source : Nat) (tag : Tag)
    (payload : α) : ∃ next, mesh.send source target tag payload = .ok next ∧
      next.size = mesh.size ∧ next.AllOpen ∧
      next.held target = mesh.held target ++ [⟨source, tag, payload⟩] ∧
      ∀ other, target ≠ other → next.held other = mesh.held other := by
  obtain ⟨endpoint, known⟩ := endpoint?_of_lt inside
  refine ⟨mesh.update target (·.deliver ⟨source, tag, payload⟩), ?_, size_update .., ?_, ?_, ?_⟩
  · simp [send, known, opened target endpoint known]
  · exact opened.update fun _ _ => rfl
  · rw [held_update_self known, Endpoint.held_deliver, held, known]
    rfl
  · exact fun other different => held_update_other different _

theorem receive_split (inside : source < mesh.size) (member : Nat) (tag : Tag) :
    (∃ payload next front back, mesh.receive member source tag = .ok (some payload, next) ∧
        mesh.held member = front ++ ⟨source, tag, payload⟩ :: back ∧
        next.held member = front ++ back ∧
        (∀ envelope ∈ front, envelope.answers source tag = false) ∧
        ∀ other, other ≠ member → next.held other = mesh.held other) ∨
      (∃ next, mesh.receive member source tag = .ok (none, next) ∧
        (∀ other, next.held other = mesh.held other) ∧
        ∀ envelope ∈ mesh.held member, envelope.answers source tag = false) := by
  unfold receive
  rw [if_neg (Nat.not_le_of_lt inside)]
  cases known : mesh.endpoint? member with
  | none =>
      refine Or.inr ⟨mesh, rfl, fun _ => rfl, fun envelope found => ?_⟩
      rw [held, known] at found
      cases found
  | some endpoint =>
      have holds : mesh.held member = endpoint.held := by
        rw [held, known]
        rfl
      rcases endpoint.claim_split source tag with ⟨payload, taken, front, back, claimed, _, split,
        rest, unlike⟩ | ⟨left, claimed, _, same, missing⟩
      · refine Or.inl ⟨payload, mesh.update member fun _ => taken, front, back, ?_, ?_, ?_, unlike,
          fun other different => held_update_other (Ne.symm different) _⟩
        · simp only [claimed]
        · rw [holds, split]
        · rw [held_update_self known, rest]
      · refine Or.inr ⟨mesh.update member fun _ => left, ?_, fun other => ?_, ?_⟩
        · simp only [claimed]
        · by_cases here : member = other
          · subst here
            rw [held_update_self known, holds, same]
          · rw [held_update_other here]
        · rw [holds]
          exact missing

/-- A receive finds the payload if any envelope answers, and takes nothing else away. -/
theorem receive_cases (opened : mesh.AllOpen) (inside : member < mesh.size)
    (sourceInside : source < mesh.size) (tag : Tag) :
    (∃ payload next, mesh.receive member source tag = .ok (some payload, next) ∧
        next.size = mesh.size ∧ next.AllOpen ∧
        (mesh.held member).Perm (⟨source, tag, payload⟩ :: next.held member) ∧
        ∀ other, member ≠ other → next.held other = mesh.held other) ∨
      (∃ next, mesh.receive member source tag = .ok (none, next) ∧
        ∀ envelope ∈ mesh.held member, envelope.answers source tag = false) := by
  obtain ⟨endpoint, known⟩ := endpoint?_of_lt inside
  have holds : mesh.held member = endpoint.held := by
    rw [held, known]
    rfl
  have outcome : mesh.receive member source tag = .ok
      ((endpoint.claim source tag).1,
        mesh.update member fun _ => (endpoint.claim source tag).2) := by
    simp [receive, Nat.not_le_of_lt sourceInside, known]
  rw [outcome, holds]
  rcases endpoint.claim_cases source tag with ⟨payload, next, claimed, stays, taken⟩ |
    ⟨next, claimed, _, missing⟩
  · refine Or.inl ⟨payload, mesh.update member fun _ => next, by rw [claimed], size_update .., ?_,
      ?_, ?_⟩
    · refine opened.update fun old found => ?_
      obtain rfl := Option.some.inj (known.symm.trans found)
      exact stays
    · rw [held_update_self known]
      exact taken
    · exact fun other different => held_update_other different _
  · exact Or.inr ⟨_, by rw [claimed], missing⟩

theorem held_send {next : Mesh α} (sent : mesh.send source target tag payload = .ok next)
    (other : Nat) : next.held other =
      mesh.held other ++ if other = target then [⟨source, tag, payload⟩] else [] := by
  obtain ⟨endpoint, known⟩ := receiver_of_send sent
  rw [send_eq sent]
  by_cases here : other = target
  · subst here
    rw [held_update_self known, Endpoint.held_deliver, if_pos rfl, held, known]
    rfl
  · rw [held_update_other (Ne.symm here), if_neg here, List.append_nil]

theorem held_discard (mesh : Mesh α) (member : Nat) (stale : Tag → Bool) (other : Nat) :
    (mesh.discard member stale).2.held other =
      if other = member then (mesh.held other).filter (fun envelope => !stale envelope.tag)
      else mesh.held other := by
  rw [discard_eq]
  by_cases here : other = member
  · subst here
    rw [if_pos rfl]
    cases known : mesh.endpoint? other with
    | none =>
        rw [update_missing known, held, known]
        rfl
    | some endpoint =>
        rw [held_update_self known, Endpoint.held_discard, held, known]
        rfl
  · rw [if_neg here, held_update_other (Ne.symm here)]

theorem discard_held (opened : mesh.AllOpen) (member : Nat) (stale : Tag → Bool) :
    (mesh.discard member stale).2.size = mesh.size ∧ (mesh.discard member stale).2.AllOpen ∧
      (mesh.discard member stale).2.held member =
        (mesh.held member).filter (fun envelope => !stale envelope.tag) ∧
      ∀ other, member ≠ other → (mesh.discard member stale).2.held other = mesh.held other := by
  refine ⟨?_, ?_, ?_, fun other different => ?_⟩
  · rw [discard_eq, size_update]
  · rw [discard_eq]
    exact opened.update fun _ _ => rfl
  · rw [held_discard, if_pos rfl]
  · rw [held_discard, if_neg (Ne.symm different)]

theorem mem_held_send {next : Mesh α} {envelope : Envelope α}
    (sent : mesh.send source target tag payload = .ok next) (found : envelope ∈ next.held other) :
    envelope ∈ mesh.held other ∨ other = target ∧ envelope = ⟨source, tag, payload⟩ := by
  rw [held_send sent] at found
  rcases List.mem_append.mp found with old | new
  · exact Or.inl old
  · split at new
    · next here => exact Or.inr ⟨here, List.mem_singleton.mp new⟩
    · cases new

theorem held_receive {next : Mesh α} {answer : Option α}
    (received : mesh.receive member source tag = .ok (answer, next)) :
    (∀ other, next.held other ⊆ mesh.held other) ∧
      ∀ payload, answer = some payload → ⟨source, tag, payload⟩ ∈ mesh.held member := by
  rcases receive_split (inside_of_receive received) member tag with
    ⟨payload, rest, front, back, found, split, left, _, others⟩ | ⟨rest, missed, same, _⟩
  · obtain ⟨rfl, rfl⟩ := Prod.mk.inj (Except.ok.inj (found.symm.trans received))
    refine ⟨fun other => ?_, fun _ brought => ?_⟩
    · by_cases here : other = member
      · subst here
        rw [split, left]
        exact ((List.sublist_cons_self ..).append_left front).subset
      · rw [others other here]
        exact List.Subset.refl _
    · obtain rfl := Option.some.inj brought
      rw [split]
      simp
  · obtain ⟨rfl, rfl⟩ := Prod.mk.inj (Except.ok.inj (missed.symm.trans received))
    exact ⟨fun other => same other ▸ List.Subset.refl _, nofun⟩

theorem mem_held_receive {next : Mesh α} {answer : Option α} {envelope : Envelope α}
    (received : mesh.receive member source tag = .ok (answer, next))
    (found : envelope ∈ mesh.held other)
    (apart : other = member → envelope.answers source tag = false) :
    envelope ∈ next.held other := by
  rcases receive_split (inside_of_receive received) member tag with
    ⟨payload, rest, front, back, same, split, left, _, others⟩ | ⟨rest, missed, same, _⟩
  · obtain ⟨-, rfl⟩ := Prod.mk.inj (Except.ok.inj (same.symm.trans received))
    by_cases here : other = member
    · subst here
      rw [split] at found
      rw [left]
      rcases List.mem_append.mp found with before | behind
      · exact List.mem_append_left _ before
      · rcases List.mem_cons.mp behind with rfl | behind
        · have answers : (⟨source, tag, payload⟩ : Envelope α).answers source tag = true :=
            Envelope.answers_iff.mpr ⟨rfl, rfl⟩
          rw [apart rfl] at answers
          cases answers
        · exact List.mem_append_right _ behind
    · rw [others other here]
      exact found
  · obtain ⟨-, rfl⟩ := Prod.mk.inj (Except.ok.inj (missed.symm.trans received))
    rw [same other]
    exact found

theorem held_discard_subset (mesh : Mesh α) (member other : Nat) (stale : Tag → Bool) :
    (mesh.discard member stale).2.held other ⊆ mesh.held other := by
  rw [held_discard]
  split
  · exact List.filter_sublist.subset
  · exact List.Subset.refl _

theorem size_make (members : Nat) : (make members : Mesh α).size = members :=
  List.length_replicate

theorem endpoint?_make {members : Nat} {endpoint : Endpoint α}
    (found : (make members : Mesh α).endpoint? member = some endpoint) : endpoint = .fresh :=
  List.eq_of_mem_replicate (List.mem_of_getElem? found)

theorem allOpen_make (members : Nat) : (make members : Mesh α).AllOpen := by
  intro member endpoint found
  rw [endpoint?_make found]
  rfl

theorem held_make (members member : Nat) : (make members : Mesh α).held member = [] := by
  unfold held
  cases found : (make members : Mesh α).endpoint? member with
  | none => rfl
  | some endpoint =>
      rw [endpoint?_make found]
      rfl

end Mesh
end PipelineTraining

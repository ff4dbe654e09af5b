import Mathlib.Algebra.GroupWithZero.Nat
import Mathlib.Data.List.Induction
import PipelineTraining.Proofs.Transport.Delivery

/-!
A mesh as a queue for every line: what one member has sent another under one tag. A
payload waits on its line, in the mailbox or still in front of it, until it is claimed,
dropped as stale, or lost with the endpoint that it was sent to. That holds after any
sends, receives, discards and closings, by whichever members and in whatever order.
-/

namespace PipelineTraining

variable {α : Type}

structure Line where
  source : Nat
  receiver : Nat
  tag : Tag
deriving DecidableEq

inductive Fate where
  | claimed
  | dropped
  | lost
deriving DecidableEq

namespace Mesh

/-- What a member did at its endpoint, with what came of it. Whoever waits for a message misses it
as often as it looks, the last time when the wait is over. -/
inductive Act (α : Type) where
  | sent (source target : Nat) (tag : Tag) (payload : α)
  | refused (source target : Nat) (fault : DeliveryFault)
  | received (member source : Nat) (tag : Tag) (payload : α)
  | missed (member source : Nat) (tag : Tag)
  | strayed (member source : Nat) (fault : DeliveryFault)
  | discarded (member : Nat) (stale : Tag → Bool) (count : Nat)
  | closed (member : Nat)

inductive Past (members : Nat) : List (Act α) → Mesh α → Prop
  | start : Past members [] (.make members)
  | send {log : List (Act α)} {mesh next : Mesh α} {source target : Nat} {tag : Tag} {payload : α}
      (past : Past members log mesh) (sent : mesh.send source target tag payload = .ok next) :
      Past members (log ++ [.sent source target tag payload]) next
  | refuse {log : List (Act α)} {mesh : Mesh α} {source target : Nat} {tag : Tag} {payload : α}
      {fault : DeliveryFault} (past : Past members log mesh)
      (refused : mesh.send source target tag payload = .error fault) :
      Past members (log ++ [.refused source target fault]) mesh
  | receive {log : List (Act α)} {mesh next : Mesh α} {member source : Nat} {tag : Tag}
      {payload : α} (past : Past members log mesh)
      (received : mesh.receive member source tag = .ok (some payload, next)) :
      Past members (log ++ [.received member source tag payload]) next
  | miss {log : List (Act α)} {mesh next : Mesh α} {member source : Nat} {tag : Tag}
      (past : Past members log mesh)
      (missed : mesh.receive member source tag = .ok (none, next)) :
      Past members (log ++ [.missed member source tag]) next
  | stray {log : List (Act α)} {mesh : Mesh α} {member source : Nat} {tag : Tag}
      {fault : DeliveryFault} (past : Past members log mesh)
      (strayed : mesh.receive member source tag = .error fault) :
      Past members (log ++ [.strayed member source fault]) mesh
  | discard {log : List (Act α)} {mesh : Mesh α} {member : Nat} {stale : Tag → Bool}
      (past : Past members log mesh) :
      Past members (log ++ [.discarded member stale (mesh.discard member stale).1])
        (mesh.discard member stale).2
  | close {log : List (Act α)} {mesh : Mesh α} {member : Nat} (past : Past members log mesh) :
      Past members (log ++ [.closed member]) (mesh.close member)

end Mesh

structure Account (α : Type) where
  settled : List (α × Fate)
  waiting : List α

namespace Account

def add (account : Account α) (payload : α) : Account α :=
  { account with waiting := account.waiting ++ [payload] }

def claim (account : Account α) : Account α :=
  match account.waiting with
  | [] => account
  | payload :: rest => ⟨account.settled ++ [(payload, .claimed)], rest⟩

def settle (account : Account α) (fate : Fate) : Account α :=
  ⟨account.settled ++ account.waiting.map (·, fate), []⟩

def claimed (account : Account α) : List α :=
  account.settled.filterMap fun entry => if entry.2 = .claimed then some entry.1 else none

theorem claim_of_waiting {account : Account α} {payload : α} {rest : List α}
    (waiting : account.waiting = payload :: rest) :
    account.claim = ⟨account.settled ++ [(payload, .claimed)], rest⟩ := by
  rw [claim, waiting]

theorem claimed_settle (account : Account α) {fate : Fate} (unclaimed : fate ≠ .claimed) :
    (account.settle fate).claimed = account.claimed := by
  simp [claimed, settle, List.filterMap_append, List.filterMap_map, unclaimed]

end Account

namespace Line

/-- The account behind one act. Only a claim takes a single payload, and a discard takes all or
none of a line. -/
def enter (line : Line) (account : Account α) : Mesh.Act α → Account α
  | .sent source target tag payload =>
      if line = ⟨source, target, tag⟩ then account.add payload else account
  | .received member source tag _ =>
      if line = ⟨source, member, tag⟩ then account.claim else account
  | .discarded member stale _ =>
      if line.receiver = member ∧ stale line.tag = true then account.settle .dropped else account
  | .closed member => if line.receiver = member then account.settle .lost else account
  | .refused .. | .missed .. | .strayed .. => account

def account (line : Line) (log : List (Mesh.Act α)) : Account α :=
  log.foldl line.enter ⟨[], []⟩

def sent? (line : Line) : Mesh.Act α → Option α
  | .sent source target tag payload =>
      if line = ⟨source, target, tag⟩ then some payload else none
  | _ => none

def received? (line : Line) : Mesh.Act α → Option α
  | .received member source tag payload =>
      if line = ⟨source, member, tag⟩ then some payload else none
  | _ => none

theorem account_snoc (line : Line) (log : List (Mesh.Act α)) (act : Mesh.Act α) :
    line.account (log ++ [act]) = line.enter (line.account log) act := by
  rw [account, List.foldl_append]
  rfl

theorem sent_eq (line : Line) (log : List (Mesh.Act α)) :
    log.filterMap line.sent? =
      (line.account log).settled.map Prod.fst ++ (line.account log).waiting := by
  induction log using List.reverseRecOn with
  | nil => rfl
  | append_singleton log act ih =>
      rw [account_snoc, List.filterMap_append, ih]
      cases act with
      | sent source target tag payload =>
          by_cases here : line = ⟨source, target, tag⟩
          · simp [sent?, enter, here, Account.add]
          · simp [sent?, enter, here]
      | received member source tag payload =>
          by_cases here : line = ⟨source, member, tag⟩
          · subst here
            cases waiting : (account ⟨source, member, tag⟩ log).waiting with
            | nil => simp [sent?, enter, Account.claim, waiting]
            | cons first rest => simp [sent?, enter, Account.claim_of_waiting waiting]
          · simp [sent?, enter, here]
      | discarded member stale count =>
          by_cases here : line.receiver = member ∧ stale line.tag = true
          · simp [sent?, enter, here, Account.settle, Function.comp_def]
          · simp [sent?, enter, here]
      | closed member =>
          by_cases here : line.receiver = member
          · simp [sent?, enter, here, Account.settle, Function.comp_def]
          · simp [sent?, enter, here]
      | refused | missed | strayed => simp [sent?, enter]

theorem fates (line : Line) (log : List (Mesh.Act α)) :
    ∀ entry ∈ (line.account log).settled,
      (entry.2 = .dropped → ∃ stale count, Mesh.Act.discarded line.receiver stale count ∈ log ∧
        stale line.tag = true) ∧
      (entry.2 = .lost → Mesh.Act.closed line.receiver ∈ log) := by
  induction log using List.reverseRecOn with
  | nil => exact fun _ found => by cases found
  | append_singleton log act ih =>
      have older : ∀ entry ∈ (line.account log).settled,
          (entry.2 = .dropped → ∃ stale count, Mesh.Act.discarded line.receiver stale count ∈
            log ++ [act] ∧ stale line.tag = true) ∧
          (entry.2 = .lost → Mesh.Act.closed line.receiver ∈ log ++ [act]) := by
        refine fun entry found => ⟨fun dropped => ?_, fun lost => ?_⟩
        · obtain ⟨stale, count, done, aged⟩ := (ih entry found).1 dropped
          exact ⟨stale, count, List.mem_append_left _ done, aged⟩
        · exact List.mem_append_left _ ((ih entry found).2 lost)
      have settling : ∀ fate, ∀ entry ∈ ((line.account log).settle fate).settled,
          entry ∈ (line.account log).settled ∨ entry.2 = fate := by
        intro fate entry found
        rcases List.mem_append.mp found with old | new
        · exact Or.inl old
        · obtain ⟨_, _, rfl⟩ := List.mem_map.mp new
          exact Or.inr rfl
      rw [account_snoc]
      cases act with
      | sent source target tag payload =>
          rw [enter]
          split <;> exact older
      | received member source tag payload =>
          rw [enter]
          split
          · cases waiting : (line.account log).waiting with
            | nil =>
                rw [Account.claim, waiting]
                exact older
            | cons first rest =>
                rw [Account.claim_of_waiting waiting]
                refine fun entry found => ?_
                rcases List.mem_append.mp found with old | new
                · exact older entry old
                · obtain rfl := List.mem_singleton.mp new
                  exact ⟨nofun, nofun⟩
          · exact older
      | discarded member stale count =>
          rw [enter]
          split
          · next here =>
            obtain ⟨rfl, aged⟩ := here
            refine fun entry found => ?_
            rcases settling _ entry found with old | new
            · exact older entry old
            · refine ⟨fun _ => ⟨stale, count, by simp, aged⟩, fun lost => ?_⟩
              rw [new] at lost
              cases lost
          · exact older
      | closed member =>
          rw [enter]
          split
          · next here =>
            subst here
            refine fun entry found => ?_
            rcases settling _ entry found with old | new
            · exact older entry old
            · refine ⟨fun dropped => ?_, fun _ => by simp⟩
              rw [new] at dropped
              cases dropped
          · exact older
      | refused | missed | strayed => exact older

end Line

namespace Mesh

variable {mesh next : Mesh α} {members member target source other : Nat} {tag : Tag} {payload : α}
  {line : Line} {log : List (Act α)}

def queue (mesh : Mesh α) (line : Line) : List α :=
  ((mesh.held line.receiver).filter fun envelope =>
    envelope.answers line.source line.tag).map Envelope.payload

def arrived (mesh : Mesh α) (member : Nat) : List (Envelope α) :=
  (mesh.endpoint? member).elim [] Endpoint.arrived

def letter? (member : Nat) : Act α → Option (Envelope α)
  | .sent source target tag payload =>
      if member = target then some ⟨source, tag, payload⟩ else none
  | _ => none

def claimedBy (member : Nat) : Act α → Nat
  | .received receiver _ _ _ => if member = receiver then 1 else 0
  | _ => 0

def droppedBy (member : Nat) : Act α → Nat
  | .discarded receiver _ count => if member = receiver then count else 0
  | _ => 0

def claims (member : Nat) (log : List (Act α)) : Nat :=
  (log.map (claimedBy member)).sum

def drops (member : Nat) (log : List (Act α)) : Nat :=
  (log.map (droppedBy member)).sum

/-- What a log says about the mesh that it led to. -/
structure Reliable (members : Nat) (log : List (Act α)) (mesh : Mesh α) : Prop where
  /-- Nothing is lost: what is sent on a line and has not met its fate still waits on it. -/
  sent : ∀ line : Line, log.filterMap line.sent? =
    (line.account log).settled.map Prod.fst ++ mesh.queue line
  /-- What receives have returned is what was claimed, in the order in which it was sent. -/
  received : ∀ line : Line, log.filterMap line.received? = (line.account log).claimed
  /-- A payload is dropped by nothing but a discard of its own tag, and lost only with the endpoint
  that it was sent to. -/
  fates : ∀ line : Line, ∀ entry ∈ (line.account log).settled,
    (entry.2 = .dropped → ∃ stale count, Act.discarded line.receiver stale count ∈ log ∧
      stale line.tag = true) ∧
    (entry.2 = .lost → Act.closed line.receiver ∈ log)
  /-- A receive brings what has waited longest on its line; without such a payload it changes
  nothing that waits anywhere. -/
  answers : ∀ member source tag, source < members → ∃ next,
    mesh.receive member source tag = .ok ((mesh.queue ⟨source, member, tag⟩).head?, next) ∧
      ((mesh.queue ⟨source, member, tag⟩).head? = none →
        ∀ other, next.held other = mesh.held other)
  foreign : ∀ member source tag, members ≤ source →
    mesh.receive member source tag = .error (.outsideGroup source members)
  /-- A send fails only where there is nobody. -/
  delivers : ∀ source target tag payload,
    (∃ next, mesh.send source target tag payload = .ok next) ↔ mesh.isOpen target = true
  /-- A discard counts what it drops, drops all that is stale and keeps the rest in order. -/
  discards : ∀ member stale,
    (mesh.discard member stale).2.held member =
        (mesh.held member).filter (fun envelope => !stale envelope.tag) ∧
      (mesh.discard member stale).1 =
        (mesh.held member).countP (fun envelope => stale envelope.tag) ∧
      ∀ other, other ≠ member → (mesh.discard member stale).2.held other = mesh.held other
  /-- What came to an open endpoint stands in front of its mailbox, the last that was sent, or it
  has been moved out; as many as were moved out are buffered, claimed or dropped. -/
  buffered : ∀ member endpoint, mesh.endpoint? member = some endpoint → endpoint.isOpen = true →
    ∃ moved, log.filterMap (letter? member) = moved ++ endpoint.arrived ∧
      moved.length = endpoint.buffered + (claims member log + drops member log)

theorem held_close (mesh : Mesh α) (member other : Nat) :
    (mesh.close member).held other = if other = member then [] else mesh.held other := by
  by_cases here : other = member
  · subst here
    rw [if_pos rfl]
    cases known : mesh.endpoint? other with
    | none =>
        rw [held, close, endpoint?_update, if_pos rfl, known]
        rfl
    | some endpoint =>
        rw [close, held_update_self known]
        rfl
  · rw [if_neg here, close, held_update_other (Ne.symm here)]

theorem discard_count (mesh : Mesh α) (member : Nat) (stale : Tag → Bool) :
    (mesh.discard member stale).1 =
      (mesh.held member).countP (fun envelope => stale envelope.tag) := by
  unfold discard held
  cases mesh.endpoint? member with
  | none => rfl
  | some endpoint =>
      have parts := List.length_eq_countP_add_countP (fun envelope : Envelope α =>
        stale envelope.tag) (l := endpoint.held)
      change (endpoint.held.length - (endpoint.held.filter _).length) = endpoint.held.countP _
      rw [← List.countP_eq_length_filter]
      simp only [Bool.not_eq_true, Bool.decide_eq_false] at parts
      omega

section queue

theorem queue_eq_nil
    (unlike : ∀ envelope ∈ mesh.held member, envelope.answers source tag = false) :
    mesh.queue ⟨source, member, tag⟩ = [] := by
  rw [queue, List.map_eq_nil_iff, List.filter_eq_nil_iff]
  exact fun envelope found => by simp [unlike envelope found]

theorem queue_of_held (same : next.held line.receiver = mesh.held line.receiver) :
    next.queue line = mesh.queue line := by
  rw [queue, queue, same]

theorem queue_send (sent : mesh.send source target tag payload = .ok next) (line : Line) :
    next.queue line =
      mesh.queue line ++ if line = ⟨source, target, tag⟩ then [payload] else [] := by
  unfold queue
  rw [held_send sent, List.filter_append, List.map_append]
  congr 1
  by_cases there : line.receiver = target
  · by_cases here : (⟨source, tag, payload⟩ : Envelope α).answers line.source line.tag = true
    · obtain ⟨from?, label⟩ := Envelope.answers_iff.mp here
      have same : line = ⟨source, target, tag⟩ := by
        cases line
        simp_all
      have kept : [(⟨source, tag, payload⟩ : Envelope α)].filter (fun envelope =>
          envelope.answers line.source line.tag) = [⟨source, tag, payload⟩] :=
        List.filter_eq_self.mpr fun _ found => List.mem_singleton.mp found ▸ here
      rw [if_pos there, if_pos same, kept]
      rfl
    · have different : line ≠ ⟨source, target, tag⟩ := by
        rintro rfl
        exact here (Envelope.answers_iff.mpr ⟨rfl, rfl⟩)
      simp [there, here, different]
  · have different : line ≠ ⟨source, target, tag⟩ := by
      rintro rfl
      exact there rfl
    simp [there, different]

/-- On its own line a receive takes the head, and none of another line. -/
theorem queue_receive (inside : source < mesh.size)
    (received : mesh.receive member source tag = .ok (some payload, next)) (line : Line) :
    mesh.queue line =
      (if line = ⟨source, member, tag⟩ then [payload] else []) ++ next.queue line := by
  rcases receive_split inside member tag with ⟨_, _, front, back, same, split, rest, unlike, others⟩ |
    ⟨_, missed, _⟩
  · obtain ⟨found, rfl⟩ := Prod.mk.inj (Except.ok.inj (same.symm.trans received))
    rw [Option.some.inj found] at split
    by_cases there : line.receiver = member
    · unfold queue
      rw [there, split, rest]
      by_cases here : line = ⟨source, member, tag⟩
      · have none : front.filter (fun envelope => envelope.answers source tag) = [] :=
          List.filter_eq_nil_iff.mpr fun envelope found => by simp [unlike envelope found]
        have answers : (⟨source, tag, payload⟩ : Envelope α).answers source tag = true :=
          Envelope.answers_iff.mpr ⟨rfl, rfl⟩
        rw [if_pos here]
        simp [here, List.filter_append, none, answers]
      · have answers :
            ¬ (⟨source, tag, payload⟩ : Envelope α).answers line.source line.tag = true := by
          intro answers
          obtain ⟨from?, label⟩ := Envelope.answers_iff.mp answers
          apply here
          cases line
          simp_all
        rw [if_neg here]
        simp [List.filter_append, answers]
    · have different : line ≠ ⟨source, member, tag⟩ := by
        rintro rfl
        exact there rfl
      rw [if_neg different, List.nil_append, queue_of_held (others _ there)]
  · rw [missed] at received
    cases received

theorem queue_discard (mesh : Mesh α) (member : Nat) (stale : Tag → Bool) (line : Line) :
    (mesh.discard member stale).2.queue line =
      if line.receiver = member ∧ stale line.tag = true then [] else mesh.queue line := by
  unfold queue
  rw [held_discard]
  by_cases there : line.receiver = member
  · rw [if_pos there, List.filter_filter]
    by_cases aged : stale line.tag = true
    · rw [if_pos ⟨there, aged⟩, List.map_eq_nil_iff, List.filter_eq_nil_iff]
      intro envelope _ both
      obtain ⟨answers, fresh⟩ := Bool.and_eq_true_iff.mp both
      rw [(Envelope.answers_iff.mp answers).2, aged] at fresh
      cases fresh
    · rw [if_neg fun both => aged both.2]
      congr 1
      refine List.filter_congr fun envelope _ => ?_
      cases answers : envelope.answers line.source line.tag with
      | false => rfl
      | true =>
          rw [(Envelope.answers_iff.mp answers).2, Bool.true_and]
          simpa using aged
  · rw [if_neg there, if_neg fun both => there both.1]

theorem queue_close (mesh : Mesh α) (member : Nat) (line : Line) :
    (mesh.close member).queue line = if line.receiver = member then [] else mesh.queue line := by
  unfold queue
  rw [held_close]
  split <;> rfl

end queue

theorem Past.size_eq (past : Past members log mesh) : mesh.size = members := by
  induction past with
  | start => exact size_make members
  | send _ sent ih => rw [send_eq sent, size_update, ih]
  | receive _ received ih => rw [receive_eq received, size_update, ih]
  | miss _ missed ih => rw [receive_eq missed, size_update, ih]
  | discard _ ih => rw [discard_eq, size_update, ih]
  | close _ ih => exact (size_update ..).trans ih
  | refuse _ _ ih | stray _ _ ih => exact ih

theorem held_miss (missed : mesh.receive member source tag = .ok (none, next)) :
    (∀ other, next.held other = mesh.held other) ∧
      ∀ envelope ∈ mesh.held member, envelope.answers source tag = false := by
  rcases receive_split (inside_of_receive missed) member tag with
    ⟨_, _, _, _, found, _⟩ | ⟨left, same, kept, unlike⟩
  · rw [found] at missed
    cases missed
  · obtain ⟨-, rfl⟩ := Prod.mk.inj (Except.ok.inj (same.symm.trans missed))
    exact ⟨kept, unlike⟩

theorem receive_length (received : mesh.receive member source tag = .ok (some payload, next))
    (other : Nat) :
    (mesh.held other).length = (next.held other).length + if other = member then 1 else 0 := by
  rcases receive_split (inside_of_receive received) member tag with
    ⟨_, _, front, back, found, split, rest, _, others⟩ | ⟨_, missed, _⟩
  · obtain ⟨-, rfl⟩ := Prod.mk.inj (Except.ok.inj (found.symm.trans received))
    by_cases here : other = member
    · subst here
      rw [split, rest, if_pos rfl, List.length_append, List.length_append, List.length_cons]
      omega
    · rw [others _ here, if_neg here]
      rfl
  · rw [missed] at received
    cases received

theorem discard_length (mesh : Mesh α) (member : Nat) (stale : Tag → Bool) (other : Nat) :
    (mesh.held other).length = ((mesh.discard member stale).2.held other).length +
      if other = member then (mesh.discard member stale).1 else 0 := by
  rw [held_discard, discard_count]
  by_cases here : other = member
  · subst here
    have parts := List.length_eq_countP_add_countP (fun envelope : Envelope α =>
      stale envelope.tag) (l := mesh.held other)
    rw [if_pos rfl, if_pos rfl, ← List.countP_eq_length_filter]
    simp only [Bool.not_eq_true, Bool.decide_eq_false] at parts
    omega
  · rw [if_neg here, if_neg here]
    rfl

/-- A line holds what waits on its account, and nothing was claimed that no receive returned. -/
theorem Past.balance (past : Past members log mesh) (line : Line) :
    mesh.queue line = (line.account log).waiting ∧
      log.filterMap line.received? = (line.account log).claimed := by
  induction past with
  | start =>
      refine ⟨?_, rfl⟩
      rw [queue, held_make]
      rfl
  | @send log mesh next source target tag payload _ sent ih =>
      rw [Line.account_snoc, List.filterMap_append, queue_send sent line, ih.1, ih.2]
      by_cases here : line = ⟨source, target, tag⟩ <;>
        simp [Line.enter, Line.received?, here, Account.add, Account.claimed]
  | @receive log mesh next member source tag payload _ received ih =>
      have taken := queue_receive (inside_of_receive received) received line
      rw [Line.account_snoc, List.filterMap_append, ih.2]
      rw [ih.1] at taken
      by_cases here : line = ⟨source, member, tag⟩
      · rw [if_pos here, List.singleton_append] at taken
        rw [Line.enter, if_pos here, Account.claim_of_waiting taken]
        exact ⟨rfl, by simp [Line.received?, Account.claimed, here]⟩
      · rw [if_neg here, List.nil_append] at taken
        simp [Line.enter, Line.received?, here, taken]
  | @discard log mesh member stale _ ih =>
      rw [Line.account_snoc, List.filterMap_append, queue_discard, ih.1, ih.2]
      by_cases here : line.receiver = member ∧ stale line.tag = true
      · rw [if_pos here, Line.enter, if_pos here, Account.claimed_settle _ (by decide)]
        exact ⟨rfl, List.append_nil _⟩
      · rw [if_neg here, Line.enter, if_neg here]
        exact ⟨rfl, List.append_nil _⟩
  | @close log mesh member _ ih =>
      rw [Line.account_snoc, List.filterMap_append, queue_close, ih.1, ih.2]
      by_cases here : line.receiver = member
      · rw [if_pos here, Line.enter, if_pos here, Account.claimed_settle _ (by decide)]
        exact ⟨rfl, List.append_nil _⟩
      · rw [if_neg here, Line.enter, if_neg here]
        exact ⟨rfl, List.append_nil _⟩
  | miss _ missed ih =>
      rw [Line.account_snoc, List.filterMap_append, queue_of_held ((held_miss missed).1 _), ih.1, ih.2]
      exact ⟨rfl, List.append_nil _⟩
  | refuse _ _ ih | stray _ _ ih =>
      rw [Line.account_snoc, List.filterMap_append, ih.1, ih.2]
      exact ⟨rfl, List.append_nil _⟩

section isOpen

theorem isOpen_of_endpoint? {endpoint : Endpoint α}
    (known : mesh.endpoint? member = some endpoint) : mesh.isOpen member = endpoint.isOpen := by
  rw [isOpen, known]
  rfl

theorem isOpen_update {change : Endpoint α → Endpoint α}
    (kept : ∀ endpoint, (change endpoint).isOpen = endpoint.isOpen) (mesh : Mesh α)
    (member other : Nat) : (mesh.update member change).isOpen other = mesh.isOpen other := by
  rw [isOpen, isOpen, endpoint?_update]
  split
  · rw [Option.map_map, Function.comp_def]
    simp only [kept]
  · rfl

theorem isOpen_send (sent : mesh.send source target tag payload = .ok next) (other : Nat) :
    next.isOpen other = mesh.isOpen other := by
  rw [send_eq sent]
  exact isOpen_update (by exact fun _ => rfl) ..

theorem isOpen_receive {answer : Option α}
    (received : mesh.receive member source tag = .ok (answer, next)) (other : Nat) :
    next.isOpen other = mesh.isOpen other := by
  rw [receive_eq received]
  exact isOpen_update (·.claim_isOpen source tag) ..

theorem isOpen_discard (mesh : Mesh α) (member : Nat) (stale : Tag → Bool) (other : Nat) :
    (mesh.discard member stale).2.isOpen other = mesh.isOpen other := by
  rw [discard_eq]
  exact isOpen_update (by exact fun _ => rfl) ..

theorem isOpen_close (mesh : Mesh α) (member other : Nat) :
    (mesh.close member).isOpen other = (!(other == member) && mesh.isOpen other) := by
  rw [isOpen, isOpen, close, endpoint?_update]
  by_cases here : member = other
  · subst here
    rw [if_pos rfl, beq_self_eq_true]
    cases mesh.endpoint? member <;> rfl
  · rw [if_neg here, beq_false_of_ne (Ne.symm here)]
    rfl

theorem send_ok_iff :
    (∃ next, mesh.send source target tag payload = .ok next) ↔ mesh.isOpen target = true := by
  unfold send isOpen
  cases mesh.endpoint? target with
  | none => simp
  | some endpoint => cases opened : endpoint.isOpen <;> simp [opened]

end isOpen

section intake

theorem letters_snoc (member : Nat) (log : List (Act α)) (act : Act α) :
    (log ++ [act]).filterMap (letter? member) =
      log.filterMap (letter? member) ++ (letter? member act).toList := by
  rw [List.filterMap_append, List.filterMap_cons]
  cases letter? member act <;> rfl

theorem letters_calm {act : Act α} (calm : letter? member act = none) :
    (log ++ [act]).filterMap (letter? member) = log.filterMap (letter? member) := by
  rw [letters_snoc, calm]
  exact List.append_nil _

theorem claims_snoc (member : Nat) (log : List (Act α)) (act : Act α) :
    claims member (log ++ [act]) = claims member log + claimedBy member act := by
  simp [claims]

theorem drops_snoc (member : Nat) (log : List (Act α)) (act : Act α) :
    drops member (log ++ [act]) = drops member log + droppedBy member act := by
  simp [drops]

theorem Past.intake (past : Past members log mesh) (opened : mesh.isOpen member = true) :
    (log.filterMap (letter? member)).length =
      (mesh.held member).length + (claims member log + drops member log) := by
  induction past with
  | start => simp [held_make, claims, drops]
  | @send log mesh next source target tag payload _ sent ih =>
      have before := ih (isOpen_send sent member ▸ opened)
      rw [letters_snoc, claims_snoc, drops_snoc, held_send sent, List.length_append, before]
      simp only [letter?, claimedBy, droppedBy]
      by_cases here : member = target <;> simp [here]
      omega
  | receive _ received ih =>
      have before := ih (isOpen_receive received member ▸ opened)
      rw [letters_snoc, claims_snoc, drops_snoc, List.length_append, before,
        receive_length received member]
      simp only [letter?, claimedBy, droppedBy, Option.toList_none, List.length_nil]
      omega
  | @discard log mesh receiver stale _ ih =>
      have before := ih (isOpen_discard _ _ _ member ▸ opened)
      rw [letters_snoc, claims_snoc, drops_snoc, List.length_append, before,
        discard_length mesh receiver stale member]
      simp only [letter?, claimedBy, droppedBy, Option.toList_none, List.length_nil]
      omega
  | close _ ih =>
      rw [isOpen_close, Bool.and_eq_true, Bool.not_eq_true', beq_eq_false_iff_ne] at opened
      rw [letters_snoc, claims_snoc, drops_snoc, List.length_append, ih opened.2, held_close,
        if_neg opened.1]
      rfl
  | miss _ missed ih =>
      have before := ih (isOpen_receive missed member ▸ opened)
      rw [letters_snoc, claims_snoc, drops_snoc, List.length_append, before, (held_miss missed).1]
      rfl
  | refuse _ _ ih | stray _ _ ih =>
      rw [letters_snoc, claims_snoc, drops_snoc, List.length_append, ih opened]
      rfl

theorem arrived_update {change : Endpoint α → Endpoint α}
    (moves : ∀ endpoint, (change endpoint).arrived <:+ endpoint.arrived) (mesh : Mesh α)
    (member other : Nat) : (mesh.update member change).arrived other <:+ mesh.arrived other := by
  rw [arrived, arrived, endpoint?_update]
  split
  · cases mesh.endpoint? other with
    | none => exact List.suffix_refl _
    | some endpoint => exact moves endpoint
  · exact List.suffix_refl _

theorem arrived_send (sent : mesh.send source target tag payload = .ok next) (other : Nat) :
    next.arrived other =
      mesh.arrived other ++ if other = target then [⟨source, tag, payload⟩] else [] := by
  obtain ⟨endpoint, known⟩ := receiver_of_send sent
  rw [send_eq sent, arrived, arrived, endpoint?_update]
  by_cases here : other = target
  · subst here
    rw [if_pos rfl, if_pos rfl, known]
    rfl
  · rw [if_neg here, if_neg (Ne.symm here), List.append_nil]

theorem Past.arrived_suffix (past : Past members log mesh) (member : Nat) :
    mesh.arrived member <:+ log.filterMap (letter? member) := by
  induction past with
  | start =>
      rw [arrived]
      cases found : (make members : Mesh α).endpoint? member with
      | none => exact List.nil_suffix
      | some endpoint => exact endpoint?_make found ▸ List.nil_suffix
  | @send log mesh next source target tag payload _ sent ih =>
      obtain ⟨moved, same⟩ := ih
      refine ⟨moved, ?_⟩
      rw [letters_snoc, arrived_send sent, ← same, List.append_assoc]
      by_cases here : member = target <;> simp [letter?, here]
  | receive _ received ih =>
      rw [letters_calm rfl, receive_eq received]
      exact (arrived_update (·.claim_arrived _ _) ..).trans ih
  | miss _ missed ih =>
      rw [letters_calm rfl, receive_eq missed]
      exact (arrived_update (·.claim_arrived _ _) ..).trans ih
  | discard _ ih =>
      rw [letters_calm rfl, discard_eq]
      exact (arrived_update (fun _ => List.nil_suffix) ..).trans ih
  | close _ ih =>
      rw [letters_calm rfl]
      exact (arrived_update (fun _ => List.nil_suffix) ..).trans ih
  | refuse _ _ ih | stray _ _ ih =>
      rw [letters_calm rfl]
      exact ih

end intake

/-- A mesh is reliable whatever its members did. -/
theorem Past.reliable (past : Past members log mesh) : Reliable members log mesh where
  sent line := (past.balance line).1 ▸ line.sent_eq log
  received line := (past.balance line).2
  fates line := line.fates log
  answers member source tag inside := by
    rw [← past.size_eq] at inside
    rcases receive_split inside member tag with ⟨payload, next, _, _, found, _⟩ | ⟨next, missed, _⟩
    · have taken := queue_receive inside found ⟨source, member, tag⟩
      rw [if_pos rfl] at taken
      refine ⟨next, ?_, fun missing => ?_⟩
      · rw [found, taken]
        rfl
      · rw [taken] at missing
        cases missing
    · refine ⟨next, ?_, fun _ => (held_miss missed).1⟩
      rw [queue_eq_nil (held_miss missed).2, missed]
      rfl
  foreign member source tag outside := by
    rw [← past.size_eq] at outside ⊢
    exact if_pos outside
  delivers source target tag payload := send_ok_iff
  discards member stale :=
    ⟨by rw [held_discard, if_pos rfl], discard_count mesh member stale,
      fun other different => by rw [held_discard, if_neg different]⟩
  buffered member endpoint known opened := by
    have intake := past.intake ((isOpen_of_endpoint? known).trans opened)
    obtain ⟨moved, split⟩ := past.arrived_suffix member
    refine ⟨moved, ?_, ?_⟩
    · rw [← split, arrived, known]
      rfl
    · rw [← split, arrived, held, known] at intake
      simp only [Option.elim_some, Endpoint.held, List.length_append] at intake
      rw [Endpoint.buffered]
      omega

/-- Two payloads are overtaken by a third. Their sender has gone when the first of them is claimed,
and the other is dropped as stale. -/
theorem reliable_of_overtaken :
    Past 2 [.sent 0 1 ⟨0, 4⟩ 7, .sent 0 1 ⟨0, 4⟩ 8, .sent 0 1 ⟨1, 4⟩ 9, .received 1 0 ⟨1, 4⟩ 9,
      .closed 0, .received 1 0 ⟨0, 4⟩ 7, .discarded 1 (·.isStale 1) 1] ⟨[.closed, .fresh]⟩ ∧
    Reliable 2 [.sent 0 1 ⟨0, 4⟩ 7, .sent 0 1 ⟨0, 4⟩ 8, .sent 0 1 ⟨1, 4⟩ 9,
      .received 1 0 ⟨1, 4⟩ 9, .closed 0, .received 1 0 ⟨0, 4⟩ 7, .discarded 1 (·.isStale 1) 1]
      ⟨[.closed, .fresh]⟩ := by
  have one : Past 2 [.sent 0 1 ⟨0, 4⟩ 7] ⟨[.fresh, ⟨[⟨0, ⟨0, 4⟩, 7⟩], [], true⟩]⟩ :=
    .send .start rfl
  have two : Past 2 [.sent 0 1 ⟨0, 4⟩ 7, .sent 0 1 ⟨0, 4⟩ 8]
      ⟨[.fresh, ⟨[⟨0, ⟨0, 4⟩, 7⟩, ⟨0, ⟨0, 4⟩, 8⟩], [], true⟩]⟩ := one.send rfl
  have three : Past 2 [.sent 0 1 ⟨0, 4⟩ 7, .sent 0 1 ⟨0, 4⟩ 8, .sent 0 1 ⟨1, 4⟩ 9]
      ⟨[.fresh, ⟨[⟨0, ⟨0, 4⟩, 7⟩, ⟨0, ⟨0, 4⟩, 8⟩, ⟨0, ⟨1, 4⟩, 9⟩], [], true⟩]⟩ := two.send rfl
  -- The claim puts what it passes over into the mailbox.
  have overtaken : Past 2 [.sent 0 1 ⟨0, 4⟩ 7, .sent 0 1 ⟨0, 4⟩ 8, .sent 0 1 ⟨1, 4⟩ 9,
      .received 1 0 ⟨1, 4⟩ 9] ⟨[.fresh, ⟨[], [⟨0, ⟨0, 4⟩, 7⟩, ⟨0, ⟨0, 4⟩, 8⟩], true⟩]⟩ :=
    three.receive rfl
  have left : Past 2 [.sent 0 1 ⟨0, 4⟩ 7, .sent 0 1 ⟨0, 4⟩ 8, .sent 0 1 ⟨1, 4⟩ 9,
      .received 1 0 ⟨1, 4⟩ 9, .closed 0, .received 1 0 ⟨0, 4⟩ 7]
      ⟨[.closed, ⟨[], [⟨0, ⟨0, 4⟩, 8⟩], true⟩]⟩ := (overtaken.close).receive rfl
  have dropped : Past 2 [.sent 0 1 ⟨0, 4⟩ 7, .sent 0 1 ⟨0, 4⟩ 8, .sent 0 1 ⟨1, 4⟩ 9,
      .received 1 0 ⟨1, 4⟩ 9, .closed 0, .received 1 0 ⟨0, 4⟩ 7, .discarded 1 (·.isStale 1) 1]
      ⟨[.closed, .fresh]⟩ := left.discard
  exact ⟨dropped, dropped.reliable⟩

end Mesh
end PipelineTraining

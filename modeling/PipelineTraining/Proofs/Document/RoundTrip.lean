import PipelineTraining.Document.Timing
import PipelineTraining.Proofs.Document.Records

/-!
Plans, timing records and configurations read back as they were written, at the level of JSON
values. For every type of their parts one lemma says so of what a data file carries of its
encoding; only a tolerance can be lost on the way, when it is not finite.
-/

namespace PipelineTraining
open Document

theorem StageId.decode?_encode (stage : StageId) : decode? stage.encode.carried = some stage := by
  rw [decode?, encode, values?_carried (by rfl) (by decide)]
  simp

theorem Placement.decode?_encode (placement : Placement) :
    decode? placement.encode.carried = some placement := by
  cases placement <;> rfl

theorem Layout.decode?_encode (layout : Layout) : decode? layout.encode.carried = some layout := by
  rw [decode?, encode, slots?_carried (by rfl) (by decide)]
  simp [Placement.decode?_encode]

theorem TransferKind.looseName?_encode (kind : TransferKind) :
    (looseName? kind.encode.carried).bind ofName? = some kind := by
  cases kind <;> rfl

theorem Transfer.decodeNaming?_encode (transfer : Transfer) :
    decodeNaming? looseName? transfer.encode.carried = some transfer := by
  rw [decodeNaming?, encode, values?_carried (by rfl) (by decide)]
  simp [StageId.decode?_encode, TransferKind.looseName?_encode]

theorem OperationKind.ofName?_name (kind : OperationKind) : ofName? kind.name = some kind := by
  cases kind <;> rfl

namespace Operation

theorem pass?_passMembers (stage : StageId) (microbatch : Nat) :
    pass? (Json.object (passMembers stage microbatch)).carried = some (stage, microbatch) := by
  rw [pass?, passMembers, values?_carried (by rfl) (by decide)]
  simp [StageId.decode?_encode]

theorem transfer?_transferMembers (peer : Nat) (transfer : Transfer) :
    transfer? (Json.object (transferMembers peer transfer)).carried = some (peer, transfer) := by
  rw [transfer?, transferMembers, values?_carried (by rfl) (by decide)]
  simp [Transfer.decodeNaming?_encode]

theorem decodeAs_members (operation : Operation) :
    decodeAs operation.kind (Json.object operation.members).carried = some operation := by
  cases operation with
  | forward stage microbatch => simp [decodeAs, kind, members, pass?_passMembers]
  | backward stage microbatch => simp [decodeAs, kind, members, pass?_passMembers]
  | backwardWeights stage microbatch => simp [decodeAs, kind, members, pass?_passMembers]
  | send peer transfer => simp [decodeAs, kind, members, transfer?_transferMembers]
  | receive peer transfer => simp [decodeAs, kind, members, transfer?_transferMembers]
  | optimizerStep | validationSync => rfl

theorem decode?_tagged (kind : OperationKind) {members : List (String × Json)}
    (untagged : "op" ∉ members.map Prod.fst) :
    decode? (.object (("op", .string kind.name) :: members)) = decodeAs kind (.object members) := by
  have others : ∀ member ∈ members, member.1 ≠ "op" :=
    fun member inside same => untagged (same ▸ List.mem_map_of_mem inside)
  have once : repeated (("op", .string kind.name) :: members) "op" = false := by
    rw [repeated, List.countP_cons, List.countP_eq_zero.mpr (by simpa using others)]
    rfl
  have data : (("op", .string kind.name) :: members).filter (fun member => member.1 != "op") =
      members := by
    rw [List.filter_cons_of_neg (by simp), List.filter_eq_self]
    simpa using others
  rw [decode?, once, data]
  simp [OperationKind.ofName?_name]

theorem untagged (operation : Operation) :
    "op" ∉ (Json.carriedMembers operation.members).map Prod.fst := by
  rw [Json.map_fst_carriedMembers]
  cases operation <;> simp [members, passMembers, transferMembers]

theorem decode?_encode (operation : Operation) :
    decode? operation.encode.carried = some operation :=
  (decode?_tagged operation.kind operation.untagged).trans operation.decodeAs_members

end Operation

theorem RankPlan.decode?_encode (plan : RankPlan) : decode? plan.encode.carried = some plan := by
  rw [decode?, encode, values?_carried (by rfl) (by decide)]
  simp [list?_array Operation.decode?_encode]

theorem Statistics.decode?_encode (statistics : Statistics) :
    decode? statistics.encode.carried = some statistics := by
  rw [decode?, encode, values?_carried (by rfl) (by decide)]
  simp [naturals?_array]

theorem Plan.decode?_encode (plan : Plan) : decode? plan.encode.carried = some plan := by
  rw [decode?, encode, values?_carried (by rfl) (by decide)]
  simp [Layout.decode?_encode, list?_array RankPlan.decode?_encode, Statistics.decode?_encode]

theorem TimingRecord.decode?_encode (record : TimingRecord) :
    decode? record.encode.carried = some record := by
  rw [decode?, encode, values?_carried (by rfl) (by decide)]
  simp [Operation.decode?_encode]

namespace RankSet

variable {rank : Nat} {ranks : List Nat}

theorem insertSorted_eq_append (above : ∀ other ∈ ranks, other < rank) :
    insertSorted rank ranks = ranks ++ [rank] := by
  induction ranks with
  | nil => rfl
  | cons first rest ih =>
      have below := above first List.mem_cons_self
      rw [insertSorted, if_neg (by omega), if_neg (by omega),
        ih fun other member => above other (List.mem_cons_of_mem _ member)]
      rfl

theorem ranks_foldl_insert (set : RankSet) (sorted : (set.ranks ++ ranks).Pairwise (· < ·)) :
    (ranks.foldl insert set).ranks = set.ranks ++ ranks := by
  induction ranks generalizing set with
  | nil => exact (List.append_nil _).symm
  | cons rank rest ih =>
      have above : ∀ other ∈ set.ranks, other < rank := fun other member =>
        (List.pairwise_append.mp sorted).2.2 other member rank List.mem_cons_self
      have inserted : (set.insert rank).ranks = set.ranks ++ [rank] :=
        insertSorted_eq_append above
      rw [List.append_cons, ← inserted] at sorted
      rw [List.foldl_cons, ih _ sorted, inserted, ← List.append_cons]

theorem ofList_ranks (set : RankSet) : ofList set.ranks = set := by
  obtain ⟨ranks, sorted⟩ := set
  have kept : (ofList ranks).ranks = ranks := ranks_foldl_insert empty sorted
  generalize ofList ranks = other at kept
  subst kept
  rfl

theorem decode?_encode (set : RankSet) : decode? set.encode.carried = some set := by
  rw [decode?, encode, naturals?_array, Option.map_some, ofList_ranks]

end RankSet

theorem MemoryLimit.decode_encode (limit : MemoryLimit) :
    decode limit.encode.carried = .ok limit := by
  cases limit with
  | auto =>
      have lower : "auto".toLower = "auto" := String.toList_inj.mp (String.toList_map.trans rfl)
      exact if_pos lower
  | fixed count =>
      change required ((natural? (.natural count)).map fixed) = .ok (fixed count)
      rw [natural?_natural]
      rfl

namespace Document

@[simp] theorem json_natural (value : Nat) : json.natural (.natural value) = .ok value := by
  simp [json, required]

@[simp] theorem json_switch (value : Bool) : json.switch (.bool value) = .ok value := rfl

theorem json_real (value : Float) : json.real (Json.real value).carried =
    if value.isFinite then .ok value else .error .form := by
  rw [Json.carried]
  split <;> rfl

theorem json_ranks (ranks : Option RankSet) :
    json.ranks (Json.optional (ranks.map RankSet.encode)).carried = .ok ranks := by
  cases ranks with
  | none => rfl
  | some set => exact congrArg (fun read => required (read.map some)) set.decode?_encode

end Document

theorem CostModel.decode_encode (cost : CostModel) : decode cost.encode.carried = .ok cost := by
  rw [decode, readCost, encode, readRecord_carried (by rfl) (by decide)]
  simp [costFields, fillListed, field, Except.map]

theorem Window.decode_encode (window : Window) : decode window.encode.carried = .ok window := by
  rw [decode, readWindow, encode, readRecord_carried (by rfl) (by decide)]
  simp [windowFields, fillListed, field, Except.map, json_ranks]

/-- Members may come in any order, and what is left out is as usual. -/
example : Window.decode (.object [("ranks", .array [.whole 2, .whole 0]),
    ("end_iteration", .whole 18446744073709551615)]) =
      .ok ⟨100, 18446744073709551615, some ⟨[0, 2], by decide⟩⟩ := rfl

theorem ValidationSettings.decode_encode (settings : ValidationSettings) :
    decode settings.encode.carried =
      if settings.tolerance.isFinite then .ok settings else .error .form := by
  rw [decode, readValidation, encode, readRecord_carried (by rfl) (by decide)]
  cases finite : settings.tolerance.isFinite <;>
    simp [validationFields, fillListed, field, Except.map, json_real, finite]

theorem Config.decode_encode (config : Config) : decode config.encode.carried =
    if config.validation.tolerance.isFinite then .ok config else .error .form := by
  rw [decode, readConfig, encode, membersWith, readRecord_carried (by rfl) (by decide)]
  have limit : json.limit _ = _ := config.limit.decode_encode
  have validation : readValidation json _ = _ := config.validation.decode_encode
  have profiling : readWindow json _ = _ := config.profiling.decode_encode
  have cost : readCost json _ = _ := config.cost.decode_encode
  cases finite : config.validation.tolerance.isFinite <;>
    simp [configFields, fillListed, field, Except.map, limit, validation, profiling, cost, finite]

namespace Document

/-- Every plan, every timing record and every configuration reads back from what a data file
carries of it, which is all that the text shows of it; only a configuration whose tolerance is
not finite does not, and is refused. -/
theorem reads_back :
    (∀ json : Json, json.carried.write = json.write) ∧
      (∀ plan : Plan, Plan.decode? plan.encode.carried = some plan) ∧
      (∀ record : TimingRecord, TimingRecord.decode? record.encode.carried = some record) ∧
      ∀ config : Config, Config.decode config.encode.carried =
        if config.validation.tolerance.isFinite then .ok config else .error .form :=
  ⟨Json.write_carried, Plan.decode?_encode, TimingRecord.decode?_encode, Config.decode_encode⟩

end Document
end PipelineTraining

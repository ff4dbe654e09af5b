/-!
Calls one after another. A call meets a state, is answered and leaves a state behind; the
account of some calls holds all of that for every call. What a call does depends on the
calls before it only through the state that they left.
-/

namespace PipelineTraining

abbrev Service (σ κ ρ : Type) := σ → κ → σ × ρ

namespace Service

variable {σ κ ρ : Type}

structure Entry (σ κ ρ : Type) where
  before : σ
  call : κ
  reply : ρ
  later : σ

def note (service : Service σ κ ρ) (state : σ) (call : κ) : Entry σ κ ρ where
  before := state
  call := call
  reply := (service state call).2
  later := (service state call).1

def after (service : Service σ κ ρ) (state : σ) (calls : List κ) : σ :=
  calls.foldl (fun state call => (service state call).1) state

def account (service : Service σ κ ρ) (state : σ) : List κ → List (Entry σ κ ρ)
  | [] => []
  | call :: rest => service.note state call :: service.account (service state call).1 rest

variable {service : Service σ κ ρ} {state : σ} {calls front back : List κ}

theorem after_append : service.after state (front ++ back) =
    service.after (service.after state front) back := by
  simp only [after, List.foldl_append]

theorem account_append : service.account state (front ++ back) =
    service.account state front ++ service.account (service.after state front) back := by
  induction front generalizing state with
  | nil => rfl
  | cons call rest ih => simp only [List.cons_append, account, ih, after, List.foldl_cons]

/-- An entry stands behind the account of the calls made before, and is about the state that they
left. -/
theorem account_split {before after : List (Entry σ κ ρ)} {entry : Entry σ κ ρ}
    (split : service.account state calls = before ++ entry :: after) :
    ∃ front call back, calls = front ++ call :: back ∧ before = service.account state front ∧
      entry = service.note (service.after state front) call := by
  induction calls generalizing state before with
  | nil => simp [account] at split
  | cons call rest ih =>
      cases before with
      | nil => exact ⟨[], call, rest, rfl, rfl, (List.cons.inj split).1.symm⟩
      | cons first before =>
          obtain ⟨rfl, later⟩ := List.cons.inj split
          obtain ⟨front, other, back, rfl, rfl, rfl⟩ := ih later
          exact ⟨call :: front, other, back, rfl, rfl, rfl⟩

/-- What every call keeps holds after any calls. -/
theorem after_keeps {Kept : σ → Prop}
    (keeps : ∀ state call, Kept state → Kept (service state call).1) (begun : Kept state)
    (calls : List κ) : Kept (service.after state calls) := by
  induction calls generalizing state with
  | nil => exact begun
  | cons call rest ih => exact ih (keeps state call begun)

end Service
end PipelineTraining

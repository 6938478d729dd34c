import YunhouUsers.Inference.Quota.Window

/-!
Quota policies, the pure admission check and the read view of a window (`quota/policy.go` and the
second half of `quota/window.go`).
-/

namespace YunhouUsers.Inference

def WindowKind.text : WindowKind → String
  | .fiveHour => "five_hour"
  | .weekly => "weekly"
  | .monthly => "monthly"

namespace Quota

/-- The limits of a policy; a window without one is disabled. -/
structure Policy where
  fiveHourLimit : Option Int
  weeklyLimit : Option Int
  monthlyLimit : Option Int
deriving DecidableEq

def Policy.limitFor (p : Policy) : WindowKind → Option Int
  | .fiveHour => p.fiveHourLimit
  | .weekly => p.weeklyLimit
  | .monthly => p.monthlyLimit

def Policy.enabledWindows (p : Policy) : List WindowKind :=
  windowOrder.filter (fun kind => (p.limitFor kind).isSome)

def findWindow (windows : List QuotaWindow) (kind : WindowKind) (at_ : Int) : Option QuotaWindow :=
  windows.find? (liveAt kind at_)

/-- The loop of `EvaluateAdmission`: the blocking windows among the given kinds. -/
def evaluateKinds (p : Policy) (windows : List QuotaWindow) (hold at_ : Int) :
    List WindowKind → Except Err (List WindowBlock)
  | [] => .ok []
  | kind :: kinds =>
    match findWindow windows kind at_ with
    | none =>
      .error (.domain .invalidInput ("quota: enabled window " ++ kind.text ++
        " not resolved (resolve via ConsumptionWindow before admission)"))
    | some w => do
      let blocked ← evaluateKinds p windows hold at_ kinds
      let block : WindowBlock :=
        { kind := some kind, limit := (p.limitFor kind).getD 0, used := w.used
          reserved := w.reserved, resetsAt := some w.stop }
      return if w.available < hold then block :: blocked else blocked

def evaluateAdmission (p : Policy) (windows : List QuotaWindow) (hold at_ : Int) :
    Except Err Unit :=
  if hold < 0 then .error (.domain .invalidInput "quota: hold must be >= 0")
  else
    match evaluateKinds p windows hold at_ p.enabledWindows with
    | .error e => .error e
    | .ok [] => .ok ()
    | .ok blocked => .error (.quotaExceeded blocked false none)

variable {p : Policy} {windows : List QuotaWindow} {hold at_ : Int}

theorem evaluateKinds_ok {kinds : List WindowKind} :
    (evaluateKinds p windows hold at_ kinds = .ok []) ↔
      ∀ kind ∈ kinds, ∃ w, findWindow windows kind at_ = some w ∧ hold ≤ w.available := by
  induction kinds with
  | nil => simp [evaluateKinds]
  | cons kind kinds ih =>
    rw [List.forall_mem_cons, ← ih, evaluateKinds]
    cases findWindow windows kind at_ with
    | none => simp
    | some w =>
      cases evaluateKinds p windows hold at_ kinds with
      | error e => simp [bind, Except.bind]
      | ok blocked =>
        by_cases short : w.available < hold
        · simp [bind, Except.bind, pure, Except.pure, short, Int.not_le.mpr short]
        · simp [bind, Except.bind, pure, Except.pure, short, Int.not_lt.mp short]

theorem evaluateAdmission_ok (nonneg : 0 ≤ hold) :
    evaluateAdmission p windows hold at_ = .ok () ↔ ∀ kind ∈ p.enabledWindows,
      ∃ w, findWindow windows kind at_ = some w ∧ hold ≤ w.available := by
  rw [← evaluateKinds_ok, evaluateAdmission, if_neg (Int.not_lt.mpr nonneg)]
  cases evaluateKinds p windows hold at_ p.enabledWindows with
  | error e => simp
  | ok blocked => cases blocked <;> simp

theorem mem_enabledWindows {kind : WindowKind} :
    kind ∈ p.enabledWindows ↔ ∃ limit, p.limitFor kind = some limit := by
  have all : kind ∈ windowOrder := by cases kind <;> decide
  simp [Policy.enabledWindows, all, Option.isSome_iff_exists]

end Quota

end YunhouUsers.Inference

import SoildTunnel.Engine.Account

-- Whether a refused identity is told from other failures.
namespace Engine.Account

open Rust Option

variable {libs : Libs} {label : String} {e : Error} {account : AccountData}

inductive Request
  | keyEnrollment
  | deviceRefresh
deriving DecidableEq

def Request.call (libs : Libs) : Request → Routes → Returns AccountData
  | .keyEnrollment => enrollKey libs
  | .deviceRefresh => fetchDevice libs

abbrev Answer := Nat × Except String Text

def answers : List Sent → List Answer
  | [] => []
  | .notBuilt _ :: _ => []
  | .failed _ :: rest => answers rest
  | .answered status (.error e) :: _ => [(status, .error e)]
  | .answered status (.ok body) :: rest =>
    (status, .ok body) :: if worthRetrying status then answers rest else []

namespace Answer

def Decodable (libs : Libs) : Answer → Prop
  | (status, .ok body) => isSuccess status ∧ ∃ account, libs.account body = .ok account
  | (_, .error _) => False

-- An error for it can be put into words.
def Describable (libs : Libs) : Answer → Prop
  | (status, .ok body) => ¬ isSuccess status → (rejectionDetail libs body).isSome
  | (_, .error _) => True

end Answer

variable {status : Nat}

theorem worthRetrying_of_isSuccess (h : isSuccess status) : worthRetrying status = false := by
  simp only [isSuccess, decide_eq_true_eq] at h
  simp only [worthRetrying, decide_eq_false_iff_not]
  omega

theorem isSuccess_of_refusesIdentity (h : refusesIdentity status) : isSuccess status = false := by
  simp only [refusesIdentity, decide_eq_true_eq] at h
  simp only [isSuccess, decide_eq_false_iff_not]
  omega

section Direct

variable {attempted : List Sent}

theorem decodable_of_sendLoop_ok (h : sendLoop libs label e attempted = some (.ok account)) :
    ∃ a ∈ answers attempted, a.Decodable libs := by
  induction attempted generalizing e
  case nil => cases h
  case cons sent rest ih =>
    match sent with
    | .notBuilt _ => cases h
    | .failed _ => exact ih h
    | .answered _ (.error _) => cases h
    | .answered status (.ok body) =>
      simp only [sendLoop] at h
      split at h
      case isTrue hs =>
        refine ⟨(status, .ok body), List.mem_cons_self, hs, ?_⟩
        cases ha : libs.account body
        case error => simp [ha, Except.mapError] at h
        case ok account => exact ⟨account, rfl⟩
      case isFalse =>
        have ⟨described, _, h⟩ := bind_eq_some_iff.mp h
        split at h
        case isFalse => cases h
        case isTrue hr =>
          have ⟨a, ha, had⟩ := ih h
          exact ⟨a, by simp [answers, hr, ha], had⟩

theorem sendLoop_isSome_iff :
    (sendLoop libs label e attempted).isSome ↔ ∀ a ∈ answers attempted, a.Describable libs := by
  induction attempted generalizing e
  case nil => simp [sendLoop, answers]
  case cons sent rest ih =>
    match sent with
    | .notBuilt _ => simp [sendLoop, answers]
    | .failed _ => exact ih
    | .answered _ (.error _) => simp [sendLoop, answers, Answer.Describable]
    | .answered status (.ok body) =>
      by_cases hs : isSuccess status
      · simp [sendLoop, answers, hs, worthRetrying_of_isSuccess hs, Answer.Describable]
      · have hb : Answer.Describable libs (status, .ok body) ↔ (rejectionDetail libs body).isSome :=
          ⟨fun h => h hs, fun h _ => h⟩
        rw [answers, List.forall_mem_cons, hb, sendLoop, if_neg hs]
        cases hd : rejectionDetail libs body
        case none => simp [describeRejection, hd]
        case some detail =>
          cases hr : worthRetrying status
          case false => simp [describeRejection, hd]
          case true => simpa [describeRejection, hd] using ih

end Direct

section Front

variable {f : Front} {response : ApiResponse}

-- The last word of the camouflaged route.
def Front.Answers (f : Front) (status : Nat) (body : Text) : Prop :=
  ∃ route, f.fetch = .ok ⟨status, body, route⟩

theorem describeStatus_isSome_of_refusesIdentity {body : Text} (h : refusesIdentity status) :
    (describeStatus libs status body).isSome = (rejectionDetail libs body).isSome := by
  have hs : 100 ≤ status ∧ status < 1000 := by
    simp only [refusesIdentity, decide_eq_true_eq] at h
    omega
  simp [describeStatus, hs, describeRejection]

theorem fallbackCall_identityRefused_iff (label : String) :
    (∃ text, fallbackCall libs label f = some (.error (.identityRefused text))) ↔
      ∃ status body, f.Answers status body ∧ refusesIdentity status ∧ (rejectionDetail libs body).isSome := by
  cases hf : f.fetch
  case error failure =>
    cases failure <;> simp [fallbackCall, Front.Answers, hf, Failure.toError]
  case ok response =>
    have hu : (∃ status body, f.Answers status body ∧ refusesIdentity status ∧ (rejectionDetail libs body).isSome) ↔
        refusesIdentity response.status ∧ (rejectionDetail libs response.body).isSome := by
      constructor
      · rintro ⟨_, _, ⟨_, hr⟩, h⟩
        cases hf.symm.trans hr
        exact h
      · exact fun h => ⟨_, _, ⟨_, hf⟩, h⟩
    rw [hu]
    by_cases hr : refusesIdentity response.status
    · rw [← describeStatus_isSome_of_refusesIdentity hr]
      simp [fallbackCall, hf, isSuccess_of_refusesIdentity hr, hr, isSome_iff_exists]
    · simp only [fallbackCall, hf, hr, Bool.false_eq_true, false_and, iff_false, if_false]
      rintro ⟨text, h⟩
      split at h
      case isTrue => cases ha : libs.account response.body <;> simp [ha, Except.mapError] at h
      case isFalse => simp at h

end Front

-- What the requests come to.
namespace Routes

variable {r : Routes}

-- The last answer of a route refuses the identity.
def Refuses (r : Routes) : Prop :=
  (∃ a, (answers (attempts r.direct)).getLast? = some a ∧ refusesIdentity a.1) ∨
    ∃ status body, r.front.Answers status body ∧ refusesIdentity status

-- An answer of a route is a success that can be read.
def Accepts (libs : Libs) (r : Routes) : Prop :=
  (∃ a ∈ answers (attempts r.direct), a.Decodable libs) ∨
    ∃ status body, r.front.Answers status body ∧ Answer.Decodable libs (status, .ok body)

def DirectDescribable (libs : Libs) (r : Routes) : Prop :=
  ∀ a ∈ answers (attempts r.direct), a.Describable libs

theorem direct_error (h : ¬ r.Accepts libs) (hd : r.DirectDescribable libs) (label : String) :
    ∃ e, sendWithRetry libs label r.direct = some (.error e) := by
  have hs : (sendWithRetry libs label r.direct).isSome := sendLoop_isSome_iff.mpr hd
  have ⟨returned, hr⟩ := isSome_iff_exists.mp hs
  cases returned
  case error e => exact ⟨e, hr⟩
  case ok account => exact absurd (.inl (decodable_of_sendLoop_ok hr)) h

end Routes

variable {r : Routes}

theorem keyEnrollment_ne_identityRefused (text : String) :
    Request.keyEnrollment.call libs r ≠ some (.error (.identityRefused text)) := by
  intro h
  have ⟨direct, _, h⟩ := bind_eq_some_iff.mp h
  match direct with
  | .ok _ => cases h
  | .error _ =>
    have ⟨fallback, _, h⟩ := map_eq_some_iff.mp h
    match fallback with
    | .ok _ => cases h
    | .error _ => cases h

theorem deviceRefresh_of_not_directDescribable (h : ¬ r.DirectDescribable libs) :
    Request.deviceRefresh.call libs r = none := by
  have hn : sendWithRetry libs "device refresh" r.direct = none := by
    rw [← not_isSome_iff_eq_none]
    exact fun hs => h (sendLoop_isSome_iff.mp hs)
  simp [Request.call, fetchDevice, hn]

-- A refusal that no success contradicts is what the caller gets to see.
def Tells (libs : Libs) (q : Request) (r : Routes) : Prop :=
  r.Refuses → ¬ r.Accepts libs → ∃ text, q.call libs r = some (.error (.identityRefused text))

-- Only the second route is heard, and only by one of the requests.
theorem tells_iff (libs : Libs) (q : Request) (r : Routes) : Tells libs q r ↔
      (r.Refuses → ¬ r.Accepts libs → q = .deviceRefresh ∧ r.DirectDescribable libs ∧
        ∃ status body, r.front.Answers status body ∧ refusesIdentity status ∧ (rejectionDetail libs body).isSome) := by
  refine forall_congr' fun _ => forall_congr' fun accepts => ?_
  cases q
  case keyEnrollment => simp [keyEnrollment_ne_identityRefused]
  case deviceRefresh =>
    rw [← fallbackCall_identityRefused_iff "device refresh"]
    by_cases hd : r.DirectDescribable libs
    · have ⟨e, he⟩ := r.direct_error accepts hd "device refresh"
      simp [Request.call, fetchDevice, he, hd]
    · simp [deviceRefresh_of_not_directDescribable hd, hd]

def bare : Libs where
  value _ := none
  account _ := .error "EOF while parsing a value at line 1 column 0"
  displayStatus _ := "401 Unauthorized"

def unauthorized : Routes where
  direct _ := .answered 401 (.ok [])
  front := {
    addresses := [⟨.v4 #v[141, 101, 113, 7], 443⟩]
    exchange _ _ := .ok (401, [])
  }

theorem unauthorized_refuses : unauthorized.Refuses :=
  .inl ⟨(401, .ok []), rfl, rfl⟩

theorem not_unauthorized_accepts : ¬ unauthorized.Accepts bare := by
  rintro (⟨a, ha, had⟩ | ⟨status, body, ⟨route, ha⟩, had⟩)
  · cases List.mem_singleton.mp ha
    exact absurd had.1 (by decide)
  · cases ha
    exact absurd had.1 (by decide)

theorem not_tells_keyEnrollment : ¬ Tells bare .keyEnrollment unauthorized := by
  intro h
  have ⟨text, ht⟩ := h unauthorized_refuses not_unauthorized_accepts
  exact keyEnrollment_ne_identityRefused text ht

end Engine.Account

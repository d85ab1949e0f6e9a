import Whiteboard.Generation.Transport

/-!
# Tries of a call

Main statement: a call is sent until an answer comes that is not worth another try, or until no try is left; it waits between
two tries for as long as the policy says and never after the last one, and its answer is that of the last try
(`Call.send_tries`).

What the tries meet is told by the transport alone: `Transport.outcome` is what comes of one request after the other, whether
or not they are sent.
-/

namespace Whiteboard

namespace Transport

variable (transport : Transport τ) (body : String)

/-- A transport after the given number of requests. -/
def after (state : τ) : Nat → τ
  | 0 => state
  | requests + 1 => after (transport state body).2 requests

/-- What comes of a request that follows the given number of others. -/
def outcome (state : τ) (earlier : Nat) : Answer := .ofResponse (transport (after transport body state earlier) body).1

end Transport

namespace Answer

/-- The answer that a response gives. A connection that fails, a status that is not success, with the beginning of the body, and
a body that cannot be read are errors of their own; a body that can be read gives the description in it, or else the text,
unless that is blank or missing. -/
inductive Reports : Option Response → Answer → Prop
  | lost : Reports none (.error .transport)
  | refused {r : Response} (hstatus : r.status < 200 ∨ 300 ≤ r.status) :
      Reports (some r) (.error (.status r.status (Response.excerpt r.content)))
  | undecodable {r : Response} (hstatus : 200 ≤ r.status ∧ r.status < 300) (hbody : Payload.parse? r.content = none) :
      Reports (some r) (.error .undecodable)
  | spec {r : Response} {diagram? : Option String} {spec : Spec} (hstatus : 200 ≤ r.status ∧ r.status < 300)
      (hbody : Payload.parse? r.content = some ⟨diagram?, some spec⟩) : Reports (some r) (.ok (.spec spec))
  | text {r : Response} {diagram : String} (hstatus : 200 ≤ r.status ∧ r.status < 300)
      (hbody : Payload.parse? r.content = some ⟨some diagram, none⟩) (hfilled : ∃ c ∈ diagram.toList, Text.isBlank c = false) :
      Reports (some r) (.ok (.text diagram))
  | blank {r : Response} {diagram : String} (hstatus : 200 ≤ r.status ∧ r.status < 300)
      (hbody : Payload.parse? r.content = some ⟨some diagram, none⟩) (hblank : ∀ c ∈ diagram.toList, Text.isBlank c = true) :
      Reports (some r) (.error (.malformed "`diagram` is empty"))
  | missing {r : Response} (hstatus : 200 ≤ r.status ∧ r.status < 300)
      (hbody : Payload.parse? r.content = some ⟨none, none⟩) :
      Reports (some r) (.error (.malformed "response has neither `diagram` nor `spec`"))

/-- What comes of a request is the answer that its response gives. -/
theorem reports_ofResponse (response? : Option Response) : Reports response? (ofResponse response?) := by
  cases response? with
  | none => exact .lost
  | some r =>
    by_cases hsuccess : r.isSuccess = true
    · have hstatus : 200 ≤ r.status ∧ r.status < 300 := by simpa [Response.isSuccess] using hsuccess
      simp only [ofResponse, hsuccess, if_true]
      cases hbody : Payload.parse? r.content with
      | none => exact .undecodable hstatus hbody
      | some payload =>
        obtain ⟨diagram?, spec?⟩ := payload
        cases spec? with
        | some spec => exact .spec hstatus hbody
        | none =>
          cases diagram? with
          | none => exact .missing hstatus hbody
          | some diagram =>
            by_cases hblank : diagram.toList.all Text.isBlank = true
            · simp only [Payload.proposal, hblank, if_true]
              exact .blank hstatus hbody (by simpa using hblank)
            · simp only [Payload.proposal, hblank]
              exact .text hstatus hbody (by simpa using hblank)
    · have hstatus : r.status < 200 ∨ 300 ≤ r.status := by
        simp only [Response.isSuccess, Bool.and_eq_true, decide_eq_true_eq] at hsuccess
        omega
      simp only [ofResponse, hsuccess]
      exact .refused hstatus

/-- A payload leads to a proposal or to an error that no other try mends. -/
theorem isRetryable_proposal (p : Payload) : Answer.isRetryable p.proposal = false := by
  unfold Payload.proposal
  split
  · rfl
  · split <;> rfl
  · rfl

/-- Another try is worth it if the connection failed, or if the status tells of a fault of the server. -/
theorem isRetryable_ofResponse_iff {response? : Option Response} :
    (ofResponse response?).isRetryable = true ↔ response? = none ∨ ∃ r, response? = some r ∧ 500 ≤ r.status := by
  cases response? with
  | none => simp [ofResponse, isRetryable, GenerationError.isRetryable]
  | some r =>
    by_cases hsuccess : r.isSuccess = true
    · have hlow : ¬ 500 ≤ r.status := by
        simp only [Response.isSuccess, Bool.and_eq_true, decide_eq_true_eq] at hsuccess
        omega
      simp only [ofResponse, hsuccess, if_true]
      cases Payload.parse? r.content with
      | none => simp [isRetryable, GenerationError.isRetryable, hlow]
      | some p => simp [isRetryable_proposal p, hlow]
    · simp [ofResponse, hsuccess, isRetryable, GenerationError.isRetryable]

/-- What comes of a request is never the answer to a call without tries. -/
theorem ofResponse_ne_unanswered (response? : Option Response) : ofResponse response? ≠ Delivery.unanswered := by
  unfold ofResponse Delivery.unanswered
  split
  · nofun
  · split
    · split
      · unfold Payload.proposal
        split
        · nofun
        · split
          · simp
          · nofun
        · simp
      · nofun
    · nofun

end Answer

namespace Delivery

/-- Of at most `limit` tries with the given outcomes, `tries` are made: each but the last one is worth another, and the last
one is not or is the last that is allowed. -/
structure EndsAfter (outcome : Nat → Answer) (limit tries : Nat) : Prop where
  pos : 0 < tries
  le : tries ≤ limit
  retried : ∀ i, i + 1 < tries → (outcome i).isRetryable = true
  ended : tries < limit → (outcome (tries - 1)).isRetryable = false

/-- A try that is worth another is followed by as many as come after it. -/
theorem EndsAfter.succ {outcome : Nat → Answer} {limit tries : Nat} (hfirst : (outcome 0).isRetryable = true)
    (h : EndsAfter (fun i => outcome (i + 1)) limit tries) : EndsAfter outcome (limit + 1) (tries + 1) := by
  obtain ⟨hpos, hle, hretried, hended⟩ := h
  refine ⟨Nat.succ_pos _, Nat.succ_le_succ hle, ?_, ?_⟩
  · rintro (_ | i) hi
    · exact hfirst
    · exact hretried i (by omega)
  · intro hlt
    have hlast := hended (by omega)
    rwa [Nat.sub_add_cancel hpos] at hlast

/-- The number of tries is told by their outcomes. -/
theorem EndsAfter.unique {outcome : Nat → Answer} {limit tries tries' : Nat} (h : EndsAfter outcome limit tries)
    (h' : EndsAfter outcome limit tries') : tries = tries' := by
  have hnot : ∀ {m n}, EndsAfter outcome limit m → EndsAfter outcome limit n → ¬ m < n := by
    intro m n hm hn hlt
    have hretried := hn.retried (m - 1) (by have := hm.pos; omega)
    rw [hm.ended (Nat.lt_of_lt_of_le hlt hn.le)] at hretried
    cases hretried
  exact Nat.le_antisymm (Nat.le_of_not_lt (hnot h' h)) (Nat.le_of_not_lt (hnot h h'))

/-- A try that is worth another and one that is not are two tries. -/
theorem endsAfter_two {outcome : Nat → Answer} {limit : Nat} (hlimit : 2 ≤ limit) (hfirst : (outcome 0).isRetryable = true)
    (hsecond : (outcome 1).isRetryable = false) : EndsAfter outcome limit 2 := by
  refine ⟨Nat.two_pos, hlimit, fun i hi => ?_, fun _ => hsecond⟩
  obtain rfl : i = 0 := by omega
  exact hfirst

/-- The requests and waits of a number of tries. -/
def eventsOf (policy : RetryPolicy) (body : String) (attempt tries : Nat) : List Event :=
  .request body :: (List.range (tries - 1)).flatMap fun i => [.wait (policy.delay (attempt + i)), .request body]

/-- More than one try: a request, a wait and the other tries. -/
theorem eventsOf_succ (policy : RetryPolicy) (body : String) (attempt : Nat) {tries : Nat} (h : 0 < tries) :
    eventsOf policy body attempt (tries + 1) =
      .request body :: .wait (policy.delay attempt) :: eventsOf policy body (attempt + 1) tries := by
  obtain ⟨more, rfl⟩ := Nat.exists_eq_add_of_lt h
  simp [eventsOf, List.range_succ_eq_map, List.flatMap_map, Nat.add_assoc, Nat.add_comm 1]

/-- As many tries are made as their outcomes ask for, and the last outcome is the answer. -/
theorem exists_tries (policy : RetryPolicy) (transport : Transport τ) (body : String) (attempt left : Nat) (state : τ) :
    ∃ tries, EndsAfter (transport.outcome body state) (left + 1) tries ∧
      sendFrom policy transport body attempt (left + 1) state =
        ⟨transport.outcome body state (tries - 1), eventsOf policy body attempt tries,
          transport.after body state tries⟩ := by
  induction left generalizing attempt state with
  | zero =>
    refine ⟨1, ⟨Nat.one_pos, Nat.le_refl _, fun i hi => by omega, fun hlt => by omega⟩, ?_⟩
    simp only [sendFrom, bne_self_eq_false, Bool.and_false, Bool.false_eq_true, if_false]
    rfl
  | succ left ih =>
    by_cases hfirst : (transport.outcome body state 0).isRetryable = true
    · obtain ⟨tries, hends, hsend⟩ := ih (attempt + 1) (transport state body).2
      refine ⟨tries + 1, EndsAfter.succ hfirst hends, ?_⟩
      have hretry : (Answer.ofResponse (transport state body).1).isRetryable = true := hfirst
      rw [sendFrom]
      simp only [hretry, Bool.true_and, bne_iff_ne, ne_eq, Nat.add_one_ne_zero, not_false_eq_true, if_true, hsend]
      rw [eventsOf_succ policy body attempt hends.pos]
      obtain ⟨more, rfl⟩ := Nat.exists_eq_add_of_lt hends.pos
      rfl
    · have hfinal : (Answer.ofResponse (transport state body).1).isRetryable = false := Bool.eq_false_iff.2 hfirst
      refine ⟨1, ⟨Nat.one_pos, by omega, fun i hi => by omega, fun _ => hfinal⟩, ?_⟩
      rw [sendFrom]
      simp only [hfinal, Bool.false_and, Bool.false_eq_true, if_false]
      rfl

end Delivery

/-- With at most `n` tries, and one in any case, a call is sent `k` times: `k` is the place of the first outcome that is not
worth another try if that is at most `n`, and else `n`. Between two tries it waits, each time as long as the policy says for
the number of waits before, and not after the last; its answer is the outcome of the last try, and never that of no try. The
outcome of a try is the answer that its response gives, and worth another try are a failed connection and a status of 500 or
more. -/
theorem Call.send_tries (call : Call) (policy : RetryPolicy) (transport : Transport τ) (state : τ) :
    let body := call.toJson.compact
    let n := max 1 policy.maxAttempts
    let outcome := transport.outcome body state
    let delivery := call.send policy transport state
    (∃ k, 0 < k ∧ k ≤ n ∧ (∀ i, i + 1 < k → (outcome i).isRetryable = true) ∧
      (k < n → (outcome (k - 1)).isRetryable = false) ∧
      delivery.answer = outcome (k - 1) ∧
      delivery.events = .request body ::
        (List.range (k - 1)).flatMap (fun i => [.wait (policy.delay i), .request body]) ∧
      delivery.state = transport.after body state k) ∧
    delivery.answer ≠ .error (.malformed "retry loop ended without a response") ∧
    ∀ response?, Answer.Reports response? (Answer.ofResponse response?) ∧
      ((Answer.ofResponse response?).isRetryable = true ↔
        response? = none ∨ ∃ r, response? = some r ∧ 500 ≤ r.status) := by
  intro body n outcome delivery
  obtain ⟨left, hleft⟩ : ∃ left, n = left + 1 := Nat.exists_eq_succ_of_ne_zero (by omega)
  obtain ⟨k, hends, hsend⟩ := Delivery.exists_tries policy transport body 0 left state
  have hdelivery : delivery =
      ⟨outcome (k - 1), Delivery.eventsOf policy body 0 k, transport.after body state k⟩ := by
    rw [← hsend, ← hleft]
    exact congrArg (Delivery.sendFrom policy transport body 0 · state) (Nat.max_comm _ _)
  rw [hdelivery, hleft]
  refine ⟨⟨k, hends.pos, hends.le, hends.retried, hends.ended, rfl, ?_, rfl⟩,
    Answer.ofResponse_ne_unanswered _,
    fun response? => ⟨Answer.reports_ofResponse response?, Answer.isRetryable_ofResponse_iff⟩⟩
  simp only [Delivery.eventsOf, Nat.zero_add]

/-- A server that answers with the given responses, one after the other. -/
def Transport.scripted : Transport (List Response) := fun responses _ => (responses.head?, responses.tail)

/-- A busy server is asked again, and an answer that no other try mends is final: a status of 404 as much as a diagram. -/
theorem Call.send_tries_scripted :
    let call : Call := .propose ⟨"draw", .replaceCanvas, {}⟩
    let diagram : Response := ⟨200, "\x7b\"diagram\":\"flowchart TD\"\x7d"⟩
    let refused := call.send {} Transport.scripted [⟨503, "busy"⟩, ⟨404, "gone"⟩, diagram]
    let granted := call.send {} Transport.scripted [⟨503, "busy"⟩, diagram]
    refused.answer = .error (.status 404 "gone") ∧ refused.state = [diagram] ∧
      granted.answer = .ok (.text "flowchart TD") ∧
      granted.events = [.request call.toJson.compact, .wait (RetryPolicy.delay {} 0), .request call.toJson.compact] := by
  intro call diagram refused granted
  have hbody : Payload.parse? diagram.content = some ⟨some "flowchart TD", none⟩ := by decide +kernel
  have hdiagram : Answer.ofResponse (some diagram) = .ok (.text "flowchart TD") := by
    simp only [Answer.ofResponse, hbody]
    rfl
  obtain ⟨⟨k, hpos, hle, hretried, hended, hanswer, -, hstate⟩, -⟩ :=
    call.send_tries {} Transport.scripted [⟨503, "busy"⟩, ⟨404, "gone"⟩, diagram]
  obtain ⟨⟨l, hpos', hle', hretried', hended', hanswer', hevents', -⟩, -⟩ :=
    call.send_tries {} Transport.scripted [⟨503, "busy"⟩, diagram]
  have hlimit : 2 ≤ max 1 (RetryPolicy.maxAttempts {}) := by decide
  obtain rfl : k = 2 :=
    Delivery.EndsAfter.unique ⟨hpos, hle, hretried, hended⟩ (Delivery.endsAfter_two hlimit rfl rfl)
  obtain rfl : l = 2 :=
    Delivery.EndsAfter.unique ⟨hpos', hle', hretried', hended'⟩
      (Delivery.endsAfter_two hlimit rfl (congrArg Answer.isRetryable hdiagram))
  exact ⟨hanswer, hstate, hanswer'.trans hdiagram, hevents'⟩

end Whiteboard

import HartLink.Operation.TextInspection
import HartLink.Service.Correlation

/-!
# Inspecting an exchange

The inspector compares the frames of a request and a response.  It finds nothing to
object to exactly where a link takes the response for the answer to the request,
but for the physical layer and the expansion bytes, which only the link compares.
-/

namespace HartLink.Service

open HartLink.Foundation
open HartLink.Wire
open HartLink.Operation

structure ExchangeReport where
  request : FrameReport
  response : FrameReport
  addressMatches : Bool
  commandMatches : Bool
  issues : List InspectionIssue
  deriving DecidableEq, Repr

def inspectExchange (requestBytes responseBytes : Bytes) :
    Except InspectionIssue ExchangeReport :=
  match inspectBytes requestBytes with
  | .error issue => .error issue
  | .ok request =>
      match inspectBytes responseBytes with
      | .error issue => .error issue
      | .ok response =>
          let addressMatches : Bool := request.address = response.address
          let commandMatches : Bool := request.command = response.command
          .ok
            { request, response, addressMatches, commandMatches
              issues :=
                (if request.kind ≠ .request then
                  [{ code := "request_direction"
                     message := "the first frame is not a request" }]
                else []) ++
                (if response.kind ≠ .response then
                  [{ code := "response_direction"
                     message :=
                      "the second frame is not a solicited response" }]
                else []) ++
                (if !addressMatches then
                  [{ code := "address_mismatch"
                     message :=
                      "the response address does not match the request address" }]
                else []) ++
                if !commandMatches then
                  [{ code := "command_mismatch"
                     message := "the response logical command does not match the request" }]
                else [] }

/-- An exchange that is inspected without an issue. -/
def Consistent (requestBytes responseBytes : Bytes) : Prop :=
  ∃ report, inspectExchange requestBytes responseBytes = .ok report ∧
    report.issues = []

/-- What is compared, over the reports on the two frames. -/
theorem consistent_iff {requestBytes responseBytes : Bytes} :
    Consistent requestBytes responseBytes ↔
      ∃ request response, inspectBytes requestBytes = .ok request ∧
        inspectBytes responseBytes = .ok response ∧
        request.kind = .request ∧ response.kind = .response ∧
        request.address = response.address ∧
        request.command = response.command := by
  unfold Consistent inspectExchange
  cases inspectBytes requestBytes with
  | error issue => simp
  | ok request =>
      cases inspectBytes responseBytes with
      | error issue => simp
      | ok response =>
          simp only [Except.ok.injEq, exists_eq_left', List.append_eq_nil_iff,
            ite_eq_right_iff, List.cons_ne_nil, imp_false, not_not,
            Bool.not_eq_true', decide_eq_false_iff_not, ne_eq, and_assoc]
          constructor
          · exact fun h => ⟨_, _, rfl, rfl, h⟩
          · rintro ⟨_, _, rfl, rfl, h⟩
            exact h

/-- What the inspector and the link make of a payload agrees. -/
theorem summarizePayload_response {frame : Frame}
    (hkind : frame.kind ≠ .request) {summary : PayloadSummary} :
    summarizePayload frame = .ok summary ↔
      ∃ reply, DeviceReply.fromFrame frame = .ok reply ∧
        summary =
          { command := reply.command
            responseCode := some reply.responseCode
            deviceStatus := some reply.deviceStatus
            dataLength := reply.data.length } := by
  rw [summarizePayload, if_neg hkind]
  cases DeviceReply.fromFrame frame with
  | error error => simp
  | ok reply => simp [eq_comm]

theorem fromFrame_fields {frame : Frame} {reply : DeviceReply}
    (h : DeviceReply.fromFrame frame = .ok reply) :
    frame.kind ≠ .request ∧ reply.address = frame.address ∧
      reply.physicalLayer = frame.physicalLayer ∧
      reply.frameExpansion = frame.expansion := by
  obtain ⟨_, _, _, _, rfl, -⟩ := DeviceReply.fromFrame_ok h
  refine ⟨?_, rfl, rfl, rfl⟩
  intro hkind
  rw [DeviceReply.fromFrame, if_pos hkind] at h
  contradiction

/-- When a link takes a frame for the answer to a request. -/
theorem answerOf_isSome_iff {request response : Frame} :
    (LinkPort.answerOf request (.frame response)).isSome = true ↔
      response.kind = .response ∧
        ∃ reply, DeviceReply.fromFrame response = .ok reply ∧
          answers request reply = true := by
  rw [LinkPort.answerOf]
  cases hreply : DeviceReply.fromFrame response with
  | error error => simp
  | ok reply =>
      obtain ⟨hrequest, -⟩ := fromFrame_fields hreply
      have hecho : isEcho request response = false := by
        simp [isEcho, hrequest]
      have hburst := DeviceReply.burst_of_fromFrame hreply
      rw [hecho]
      simp only [Bool.false_eq_true, if_false, Except.ok.injEq,
        exists_eq_left']
      cases hkind : response.kind with
      | request => exact absurd hkind hrequest
      | burst =>
          rw [hkind] at hburst
          simp [hburst]
      | response =>
          rw [hkind] at hburst
          simp [hburst]

/--
For a request and a frame that have encodings, the link takes the frame for the
answer exactly when the inspector finds the exchange consistent and both frames
have one physical layer and the same expansion bytes.
-/
theorem answer_iff_consistent {request response : Frame}
    (hrequest : request.Encodable ∧ 1 ≤ request.preambles)
    (hresponse : response.Encodable ∧ 1 ≤ response.preambles)
    (hkind : request.kind = .request) :
    (LinkPort.answerOf request (.frame response)).isSome = true ↔
      Consistent request.encoding response.encoding ∧
        response.physicalLayer = request.physicalLayer ∧
        response.expansion = request.expansion := by
  have hfirst : ∃ summary, summarizePayload request = .ok summary ∧
      summary.command = logicalCommand request := by
    rw [summarizePayload, if_pos hkind]
    exact ⟨_, rfl, rfl⟩
  obtain ⟨summary, hsummary, hlogical⟩ := hfirst
  rw [answerOf_isSome_iff, consistent_iff,
    inspectBytes_encoding hrequest.1 hrequest.2,
    inspectBytes_encoding hresponse.1 hresponse.2, hsummary]
  constructor
  · rintro ⟨hanswer, reply, hreply, hanswers⟩
    obtain ⟨hother, haddress, hlayer, hexpansion⟩ := fromFrame_fields hreply
    rw [answers, decide_eq_true_iff, haddress, hlayer, hexpansion] at hanswers
    obtain ⟨hcommand, hsame, hlayers, hexpansions⟩ := hanswers
    refine ⟨⟨_, _, rfl,
      congrArg (Except.map (buildReport response))
        ((summarizePayload_response hother).mpr ⟨reply, hreply, rfl⟩),
      hkind, hanswer, hsame.symm, ?_⟩, hlayers, hexpansions⟩
    exact hlogical.trans hcommand.symm
  · rintro ⟨⟨first, second, hfirst, hsecond, -, hanswer, hsame, hcommand⟩,
      hlayers, hexpansions⟩
    injection hfirst with hfirst
    subst hfirst
    cases hsummarized : summarizePayload response with
    | error issue =>
        rw [hsummarized] at hsecond
        contradiction
    | ok other =>
        rw [hsummarized] at hsecond
        injection hsecond with hsecond
        subst hsecond
        have hother : response.kind ≠ .request := by
          intro hreverse
          rw [buildReport, hreverse] at hanswer
          contradiction
        obtain ⟨reply, hreply, rfl⟩ :=
          (summarizePayload_response hother).mp hsummarized
        obtain ⟨-, haddress, hlayer, hexpansion⟩ := fromFrame_fields hreply
        refine ⟨hanswer, reply, hreply, ?_⟩
        rw [answers, decide_eq_true_iff, haddress, hlayer, hexpansion]
        exact ⟨hcommand.symm.trans hlogical, hsame.symm, hlayers, hexpansions⟩

/-- A device identifies itself. -/
theorem answer_iff_consistent_identify :
    Consistent identifyRequest.frame.encoding identifyResponse.encoding := by
  have haddress : (Address.Polling 0 .primary).Accepted :=
    (Address.accepted_polling_iff 0 .primary).mpr (by decide)
  have hanswer : (LinkPort.answerOf identifyRequest.frame
      (.frame identifyResponse)).isSome = true := by decide
  exact ((answer_iff_consistent
    ⟨⟨haddress, by decide, by decide, rfl⟩, by decide⟩
    ⟨⟨haddress, by decide, by decide, rfl⟩, by decide⟩ rfl).mp hanswer).1

end HartLink.Service

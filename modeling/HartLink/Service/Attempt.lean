import HartLink.Service.Exchange

/-!
# What one attempt does

An attempt sends once, reads until something ends it and returns the first
answer among everything the decoder emits on the way.  `awaitReply_eq` says so
for the receive loop as a whole; the other results are its frame conditions.
-/

namespace HartLink.Service

open HartLink.Foundation
open HartLink.Wire
open HartLink.Operation

/-! ## Frame conditions of the event loops -/

/-- The ports agree in all but the skipped, published and observed events. -/
structure LinkPort.SameChannel (port other : LinkPort) : Prop where
  decoder : other.decoder = port.decoder
  readBufferSize : other.readBufferSize = port.readBufferSize
  burstHub : other.burstHub = port.burstHub
  channelUsable : other.channelUsable = port.channelUsable
  sent : other.sent = port.sent
  decoded : other.decoded = port.decoded

namespace LinkPort

theorem SameChannel.refl (port : LinkPort) : port.SameChannel port :=
  ⟨rfl, rfl, rfl, rfl, rfl, rfl⟩

theorem SameChannel.trans {first second third : LinkPort}
    (h : first.SameChannel second) (h' : second.SameChannel third) :
    first.SameChannel third :=
  ⟨h'.decoder.trans h.decoder, h'.readBufferSize.trans h.readBufferSize,
    h'.burstHub.trans h.burstHub, h'.channelUsable.trans h.channelUsable,
    h'.sent.trans h.sent, h'.decoded.trans h.decoded⟩

theorem sameChannel_emit (port : LinkPort) (event : LinkEvent) :
    port.SameChannel (port.emit event) :=
  ⟨rfl, rfl, rfl, rfl, rfl, rfl⟩

theorem sameChannel_publish (port : LinkPort) (reply : DeviceReply) :
    port.SameChannel (port.publish reply) := by
  unfold publish
  split
  · exact ⟨rfl, rfl, rfl, rfl, rfl, rfl⟩
  · exact .refl port

theorem sameChannel_acceptEvent (id : UInt64) (requestFrame : Frame)
    (port : LinkPort) (event : DecodeEvent) :
    port.SameChannel (acceptEvent id requestFrame port event).1 := by
  unfold acceptEvent
  split
  · exact sameChannel_emit port _
  split
  · exact sameChannel_emit port _
  split
  · exact .refl port
  split
  · exact (sameChannel_publish port _).trans (sameChannel_emit _ _)
  split
  · exact .refl port
  · exact sameChannel_emit port _

theorem sameChannel_acceptEvents (id : UInt64) (requestFrame : Frame)
    (port : LinkPort) (events : List DecodeEvent) :
    port.SameChannel (acceptEvents id requestFrame port events).1 := by
  induction events generalizing port with
  | nil => exact .refl port
  | cons event events ih =>
      have hfirst := sameChannel_acceptEvent id requestFrame port event
      unfold acceptEvents
      split
      next next reply hevent =>
        rw [hevent] at hfirst
        exact ⟨hfirst.decoder, hfirst.readBufferSize, hfirst.burstHub,
          hfirst.channelUsable, hfirst.sent, hfirst.decoded⟩
      next next hevent =>
        rw [hevent] at hfirst
        exact hfirst.trans (ih next)

theorem sameChannel_idleEvent (port : LinkPort) (event : DecodeEvent) :
    port.SameChannel (port.idleEvent event) := by
  unfold idleEvent
  split
  · exact sameChannel_emit port _
  split
  · exact .refl port
  split_ifs
  · exact (sameChannel_publish port _).trans (sameChannel_emit _ _)
  · exact sameChannel_emit port _

theorem sameChannel_foldl_idleEvent (port : LinkPort)
    (events : List DecodeEvent) :
    port.SameChannel (events.foldl idleEvent port) := by
  induction events generalizing port with
  | nil => exact .refl port
  | cons event events ih =>
      exact (sameChannel_idleEvent port event).trans (ih _)

theorem sent_awaitReply (id : UInt64) (requestFrame : Frame) (deadline : Nat)
    (port : LinkPort) (arrivals : List Arrival) :
    (awaitReply id requestFrame deadline port arrivals).1.sent =
      port.sent := by
  induction arrivals generalizing port with
  | nil => rfl
  | cons arrival arrivals ih =>
      obtain ⟨instant, fragment | error⟩ := arrival
      · have hevents := sameChannel_acceptEvents id requestFrame
          (port.push fragment).2 (port.push fragment).1
        have hpush : (port.push fragment).2.sent = port.sent := rfl
        simp only [awaitReply]
        split_ifs
        · rfl
        · rfl
        · rfl
        split
        next next reply haccept =>
          rw [haccept] at hevents
          exact hevents.sent.trans hpush
        next next haccept =>
          rw [haccept] at hevents
          exact (ih next).trans (hevents.sent.trans hpush)
      · simp only [awaitReply]
        split_ifs <;> rfl

theorem sent_exchangeOnce (port : LinkPort) (id : UInt64)
    (requestFrame : Frame) (encoded : Bytes) (deadline : Nat) (sent : Sent)
    (arrivals : List Arrival) :
    (port.exchangeOnce id requestFrame encoded deadline sent
      arrivals).1.sent = port.sent ++ [encoded] := by
  simp only [exchangeOnce]
  split
  · rfl
  split
  · rfl
  · exact sent_awaitReply _ _ _ _ _

/-! ## The answer among the decoded events -/

def answerOf (requestFrame : Frame) : DecodeEvent → Option DeviceReply
  | .rejected _ => none
  | .frame frame =>
      if isEcho requestFrame frame then none
      else
        match DeviceReply.fromFrame frame with
        | .error _ => none
        | .ok reply =>
            if reply.burst then none
            else if answers requestFrame reply then some reply
            else none

theorem answers_of_answerOf {requestFrame : Frame} {event : DecodeEvent}
    {reply : DeviceReply} (h : answerOf requestFrame event = some reply) :
    answers requestFrame reply = true := by
  unfold answerOf at h
  split at h
  · contradiction
  split at h
  · contradiction
  split at h
  · contradiction
  split_ifs at h with hburst hanswers
  injection h with h
  rw [← h]
  exact hanswers

theorem acceptEvent_snd (id : UInt64) (requestFrame : Frame)
    (port : LinkPort) (event : DecodeEvent) :
    (acceptEvent id requestFrame port event).2 =
      answerOf requestFrame event := by
  cases event with
  | rejected error => rfl
  | frame frame =>
      cases hecho : isEcho requestFrame frame with
      | true => simp [acceptEvent, answerOf, hecho]
      | false =>
          cases hreply : DeviceReply.fromFrame frame with
          | error error => simp [acceptEvent, answerOf, hecho, hreply]
          | ok reply =>
              simp only [acceptEvent, answerOf, hecho, hreply,
                Bool.false_eq_true, if_false]
              split_ifs <;> rfl

theorem acceptEvents_snd (id : UInt64) (requestFrame : Frame)
    (port : LinkPort) (events : List DecodeEvent) :
    (acceptEvents id requestFrame port events).2 =
      events.findSome? (answerOf requestFrame) := by
  induction events generalizing port with
  | nil => rfl
  | cons event events ih =>
      have hfirst := acceptEvent_snd id requestFrame port event
      unfold acceptEvents
      rw [List.findSome?_cons, ← hfirst]
      split
      next next reply hevent => rw [hevent]
      next next hevent =>
        rw [hevent]
        exact ih next

/-! ## The receive loop as a whole -/

/-- The fragments that the receive loop decodes unless an answer ends it. -/
def reads (deadline readBufferSize : Nat) : List Arrival → List Bytes
  | [] => []
  | ⟨_, .error _⟩ :: _ => []
  | ⟨instant, .read fragment⟩ :: arrivals =>
      if deadline < instant ∨ fragment.length = 0 ∨
          fragment.length > readBufferSize then []
      else fragment :: reads deadline readBufferSize arrivals

/-- The error that ends the receive loop when no answer does. -/
def readError (deadline readBufferSize : Nat) :
    List Arrival → ExchangeError
  | [] => .responseTimeout
  | ⟨instant, .error error⟩ :: _ =>
      if deadline < instant ∨ isReceiveTimeout error then .responseTimeout
      else .channel error
  | ⟨instant, .read fragment⟩ :: arrivals =>
      if deadline < instant then .responseTimeout
      else if fragment.length = 0 then .channel .closed
      else if fragment.length > readBufferSize then
        .channel (.configuration
          "channel returned more bytes than the receive buffer can hold")
      else readError deadline readBufferSize arrivals

/-- The receive loop returns the first answer that the decoder emits. -/
theorem awaitReply_eq (id : UInt64) (requestFrame : Frame) (deadline : Nat)
    (port : LinkPort) (arrivals : List Arrival) :
    (awaitReply id requestFrame deadline port arrivals).2 =
      ((port.decoder.pushAll
        (reads deadline port.readBufferSize arrivals)).1.findSome?
          (answerOf requestFrame)).elim
        (.error (readError deadline port.readBufferSize arrivals)) .ok := by
  induction arrivals generalizing port with
  | nil => rfl
  | cons arrival arrivals ih =>
      obtain ⟨instant, fragment | error⟩ := arrival
      · have hevents := sameChannel_acceptEvents id requestFrame
          (port.push fragment).2 (port.push fragment).1
        have hanswer := acceptEvents_snd id requestFrame
          (port.push fragment).2 (port.push fragment).1
        by_cases hlate : deadline < instant
        · simp [awaitReply, reads, readError, hlate, FrameDecoder.pushAll]
        by_cases hempty : fragment.length = 0
        · simp [awaitReply, reads, readError, hlate, hempty,
            FrameDecoder.pushAll]
        by_cases hlong : fragment.length > port.readBufferSize
        · simp [awaitReply, reads, readError, hlate, hempty, hlong,
            FrameDecoder.pushAll]
        simp only [awaitReply, reads, readError, hlate, hempty, hlong,
          or_self, if_false, FrameDecoder.pushAll, List.findSome?_append]
        have hpush : (port.push fragment).1 = (port.decoder.push fragment).1 :=
          rfl
        split
        next next reply haccept =>
          rw [haccept, hpush] at hanswer
          rw [← hanswer]
          rfl
        next next haccept =>
          rw [haccept] at hanswer hevents
          rw [hpush] at hanswer
          rw [← hanswer, ih, hevents.decoder, hevents.readBufferSize]
          rfl
      · by_cases hlate : deadline < instant
        · simp [awaitReply, reads, readError, hlate, FrameDecoder.pushAll]
        by_cases htimeout : isReceiveTimeout error = true
        · simp [awaitReply, reads, readError, hlate, htimeout,
            FrameDecoder.pushAll]
        · simp [awaitReply, reads, readError, hlate, htimeout,
            FrameDecoder.pushAll]

/--
A receive loop that has no answer before the last fragment decodes all of them,
and nothing of the port but the decoder takes part in it.
-/
theorem awaitReply_decoder (id : UInt64) (requestFrame : Frame)
    (deadline : Nat) {port : LinkPort} {arrivals : List Arrival}
    (h : ∀ before after, after ≠ [] →
      before ++ after = reads deadline port.readBufferSize arrivals →
        (port.decoder.pushAll before).1.findSome? (answerOf requestFrame) =
          none) :
    (awaitReply id requestFrame deadline port arrivals).1.decoder =
        (port.decoder.pushAll
          (reads deadline port.readBufferSize arrivals)).2 ∧
      (awaitReply id requestFrame deadline port arrivals).1.readBufferSize =
        port.readBufferSize := by
  induction arrivals generalizing port with
  | nil => exact ⟨rfl, rfl⟩
  | cons arrival arrivals ih =>
      obtain ⟨instant, fragment | error⟩ := arrival
      · have hevents := sameChannel_acceptEvents id requestFrame
          (port.push fragment).2 (port.push fragment).1
        have hanswer := acceptEvents_snd id requestFrame
          (port.push fragment).2 (port.push fragment).1
        by_cases hlate : deadline < instant
        · simp [awaitReply, reads, hlate, FrameDecoder.pushAll]
        by_cases hempty : fragment.length = 0
        · simp [awaitReply, reads, hlate, hempty, FrameDecoder.pushAll,
            unusable]
        by_cases hlong : fragment.length > port.readBufferSize
        · simp [awaitReply, reads, hlate, hempty, hlong,
            FrameDecoder.pushAll, unusable]
        simp only [awaitReply, reads, hlate, hempty, hlong, or_self, if_false,
          FrameDecoder.pushAll] at h ⊢
        have hpush : (port.push fragment).1 = (port.decoder.push fragment).1 :=
          rfl
        split
        next next reply haccept =>
          rw [haccept, hpush] at hanswer
          rw [haccept] at hevents
          have hlast : reads deadline port.readBufferSize arrivals = [] := by
            by_contra hmore
            have hnone := h [fragment] _ hmore rfl
            simp only [FrameDecoder.pushAll, List.append_nil, ← hanswer]
              at hnone
            contradiction
          rw [hlast]
          exact ⟨hevents.decoder, hevents.readBufferSize⟩
        next next haccept =>
          rw [haccept] at hevents
          have hdecoder : (port.decoder.push fragment).2 = next.decoder :=
            hevents.decoder.symm
          have hsize : port.readBufferSize = next.readBufferSize :=
            hevents.readBufferSize.symm
          rw [hdecoder, hsize]
          refine ih fun before after hafter hreads => ?_
          have hlater := h (fragment :: before) after hafter (by
            rw [hsize, ← hreads, List.cons_append])
          rw [FrameDecoder.pushAll, List.findSome?_append,
            Option.or_eq_none_iff, hdecoder] at hlater
          exact hlater.2
      · by_cases hlate : deadline < instant
        · simp [awaitReply, reads, hlate, FrameDecoder.pushAll]
        by_cases htimeout : isReceiveTimeout error = true
        · simp [awaitReply, reads, hlate, htimeout, FrameDecoder.pushAll]
        · simp [awaitReply, reads, hlate, htimeout, FrameDecoder.pushAll,
            unusable]

theorem exchangeOnce_answers {port : LinkPort} {id : UInt64}
    {requestFrame : Frame} {encoded : Bytes} {deadline : Nat} {sent : Sent}
    {arrivals : List Arrival} {reply : DeviceReply}
    (h : (port.exchangeOnce id requestFrame encoded deadline sent
      arrivals).2 = .ok reply) :
    answers requestFrame reply = true := by
  simp only [exchangeOnce] at h
  split at h
  · contradiction
  split at h
  · contradiction
  rw [awaitReply_eq] at h
  generalize hfirst : List.findSome? (answerOf requestFrame) _ = first at h
  cases first with
  | none => contradiction
  | some found =>
      injection h with h
      subst h
      obtain ⟨event, -, hevent⟩ := List.exists_of_findSome?_eq_some hfirst
      exact answers_of_answerOf hevent

end LinkPort

end HartLink.Service

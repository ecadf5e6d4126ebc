import HartLink.Ip.Interruption

/-!
# Exchanges and their answers

An exchange sends a request and reads packets until one carries its sequence
number and its message identifier.  Published packets on the way are offered to
the queue of the session, other packets are skipped up to a limit.
-/

namespace HartLink.Ip

open HartLink.Foundation
open HartLink.Operation

def IpPacket.Answers (sequence : UInt16) (messageId : UInt8)
    (packet : IpPacket) : Prop :=
  packet.messageType ≠ .publish ∧ packet.sequence = sequence ∧
    packet.messageId = messageId

/-- Answers some other request. -/
def IpPacket.Stale (sequence : UInt16) (messageId : UInt8)
    (packet : IpPacket) : Prop :=
  packet.messageType ≠ .publish ∧
    (packet.sequence ≠ sequence ∨ packet.messageId ≠ messageId)

instance (sequence : UInt16) (messageId : UInt8) (packet : IpPacket) :
    Decidable (packet.Answers sequence messageId) :=
  inferInstanceAs (Decidable (_ ∧ _))

instance (sequence : UInt16) (messageId : UInt8) (packet : IpPacket) :
    Decidable (packet.Stale sequence messageId) :=
  inferInstanceAs (Decidable (_ ∧ _))

def encodings (packets : List IpPacket) : Bytes :=
  (packets.map IpPacket.encoding).flatten

theorem encodings_cons (packet : IpPacket) (packets : List IpPacket) :
    encodings (packet :: packets) = packet.encoding ++ encodings packets := rfl

namespace IpSession

/-- A packet that an exchange of the session reads without an error. -/
structure Accepts (session : IpSession) (packet : IpPacket) : Prop where
  version : packet.version = session.protocolVersion
  body : packet.body.length ≤ session.maximumBody
  encodable : packet.body.length ≤ maximumIpBodyBytes

/-- The published packets among these are offered to the queue, in order. -/
def offers (session : IpSession) (packets : List IpPacket) : IpSession :=
  packets.foldl (fun session packet =>
    if packet.messageType = .publish then session.retainPublished packet
    else session) session

structure SamePublished (session other : IpSession) : Prop where
  published : session.published = other.published
  publishedBytes : session.publishedBytes = other.publishedBytes
  publishedDropped : session.publishedDropped = other.publishedDropped
  maximumPublished : session.maximumPublished = other.maximumPublished
  maximumPublishedBytes :
    session.maximumPublishedBytes = other.maximumPublishedBytes

theorem SamePublished.refl (session : IpSession) :
    SamePublished session session := ⟨rfl, rfl, rfl, rfl, rfl⟩

theorem SamePublished.trans {session middle other : IpSession}
    (h : SamePublished session middle) (h' : SamePublished middle other) :
    SamePublished session other :=
  ⟨h.published.trans h'.published, h.publishedBytes.trans h'.publishedBytes,
    h.publishedDropped.trans h'.publishedDropped,
    h.maximumPublished.trans h'.maximumPublished,
    h.maximumPublishedBytes.trans h'.maximumPublishedBytes⟩

theorem SamePublished.retainPublished {session other : IpSession}
    (h : SamePublished session other) (packet : IpPacket) :
    SamePublished (session.retainPublished packet)
      (other.retainPublished packet) := by
  unfold IpSession.retainPublished
  dsimp only
  rw [h.published, h.publishedBytes, h.publishedDropped, h.maximumPublished,
    h.maximumPublishedBytes]
  split_ifs
  · exact ⟨rfl, rfl, rfl, rfl, rfl⟩
  · exact ⟨rfl, rfl, rfl, rfl, rfl⟩

theorem SamePublished.offers {session other : IpSession}
    (h : SamePublished session other) (packets : List IpPacket) :
    SamePublished (session.offers packets) (other.offers packets) := by
  induction packets generalizing session other with
  | nil => exact h
  | cons packet packets ih =>
      unfold IpSession.offers
      rw [List.foldl_cons, List.foldl_cons]
      split_ifs
      · exact ih (h.retainPublished packet)
      · exact ih h

theorem Took.samePublished {bytes : Bytes} {session next : IpSession}
    (h : Took bytes session next) : SamePublished next session := by
  rw [h.rest]
  exact ⟨rfl, rfl, rfl, rfl, rfl⟩

theorem retainPublished_rest (session : IpSession) (packet : IpPacket) :
    session.retainPublished packet = { session with
      published := (session.retainPublished packet).published
      publishedBytes := (session.retainPublished packet).publishedBytes
      publishedDropped :=
        (session.retainPublished packet).publishedDropped } := by
  unfold retainPublished
  dsimp only
  split_ifs
  · rfl
  · rfl

/-! ## The receive loop -/

/-- What is left of an exchange on the way, after it has read these packets. -/
structure Progress (session : IpSession) (seen : List IpPacket)
    (next : IpSession) : Prop where
  reads : Duplex.Reads (encodings seen) session.stream next.stream
  awaits : next.stream.awaits = []
  published : SamePublished next (session.offers seen)
  usable : next.usable = session.usable
  maximumBody : next.maximumBody = session.maximumBody
  protocolVersion : next.protocolVersion = session.protocolVersion
  maximumUnmatched : next.maximumUnmatched = session.maximumUnmatched

theorem offers_concat (session : IpSession) (packets : List IpPacket)
    (packet : IpPacket) :
    session.offers (packets ++ [packet]) =
      if packet.messageType = .publish then
        (session.offers packets).retainPublished packet
      else session.offers packets := by
  simp [offers, List.foldl_append]

theorem receive_encoding {session : IpSession} {packet : IpPacket}
    {rest : Bytes} (husable : session.usable = true)
    (hawaits : session.stream.awaits = [])
    (haccepts : session.Accepts packet)
    (hinput : session.stream.input = packet.encoding ++ rest) :
    session.receive.2 = .returned (.ok packet) ∧
      Took packet.encoding session session.receive.1 := by
  have hpacket := IpPacket.isPacket_encoding haccepts.encodable
  obtain ⟨hflow, htook⟩ := receive_packet husable hawaits hpacket hinput
  rw [IpPacket.decode_encoding haccepts.encodable haccepts.body] at hflow
  exact ⟨hflow, htook⟩

theorem Progress.reads_concat {session middle next : IpSession}
    {seen : List IpPacket} {packet : IpPacket}
    (h : Progress session seen middle)
    (htook : Took packet.encoding middle next) :
    Duplex.Reads (encodings (seen ++ [packet])) session.stream next.stream := by
  have hencodings : encodings (seen ++ [packet]) =
      encodings seen ++ packet.encoding := by
    simp [encodings]
  rw [hencodings]
  exact h.reads.trans htook.reads

theorem Progress.publish {session middle next : IpSession}
    {seen : List IpPacket} {packet : IpPacket}
    (h : Progress session seen middle)
    (htook : Took packet.encoding middle next)
    (hpublish : packet.messageType = .publish) :
    Progress session (seen ++ [packet]) (next.retainPublished packet) := by
  have hqueue := htook.samePublished.trans h.published
  have hkept := next.retainPublished_rest packet
  have hstream := (congrArg IpSession.stream hkept :)
  have husable := (congrArg IpSession.usable hkept :)
  have hbody := (congrArg IpSession.maximumBody hkept :)
  have hversion := (congrArg IpSession.protocolVersion hkept :)
  have hunmatched := (congrArg IpSession.maximumUnmatched hkept :)
  have hreads := h.reads_concat htook
  constructor
  · rw [hstream]
    exact hreads
  · rw [hstream]
    exact htook.awaits
  · rw [offers_concat, if_pos hpublish]
    exact hqueue.retainPublished packet
  · exact husable.trans (htook.usable.trans h.usable)
  · exact hbody.trans (htook.maximumBody.trans h.maximumBody)
  · exact hversion.trans (htook.protocolVersion.trans h.protocolVersion)
  · exact hunmatched.trans
      (htook.maximumUnmatched.trans h.maximumUnmatched)

/-- Any other packet leaves the queue as it is. -/
theorem Progress.other {session middle next : IpSession}
    {seen : List IpPacket} {packet : IpPacket}
    (h : Progress session seen middle)
    (htook : Took packet.encoding middle next)
    (hpublish : packet.messageType ≠ .publish) (skipped : UInt64) :
    Progress session (seen ++ [packet])
      { next with unmatchedSkipped := skipped } := by
  have hqueue := htook.samePublished.trans h.published
  have hreads := h.reads_concat htook
  refine ⟨hreads, htook.awaits, ?_, htook.usable.trans h.usable,
    htook.maximumBody.trans h.maximumBody,
    htook.protocolVersion.trans h.protocolVersion,
    htook.maximumUnmatched.trans h.maximumUnmatched⟩
  rw [offers_concat, if_neg hpublish]
  exact ⟨hqueue.published, hqueue.publishedBytes, hqueue.publishedDropped,
    hqueue.maximumPublished, hqueue.maximumPublishedBytes⟩

theorem Accepts.of_progress {session next : IpSession} {packet : IpPacket}
    {seen : List IpPacket} (h : session.Accepts packet)
    (hprogress : Progress session seen next) : next.Accepts packet :=
  ⟨h.version.trans hprogress.protocolVersion.symm,
    h.body.trans hprogress.maximumBody.ge, h.encodable⟩

/-- How an exchange may end when the server sends these packets. -/
inductive Correlates (session : IpSession) (sequence : UInt16)
    (messageId : UInt8) (packets : List IpPacket) :
    IpSession → Flow IpPacket → Prop
  | answered {before after : List IpPacket} {answer : IpPacket}
      {next : IpSession} (split : packets = before ++ answer :: after)
      (skipped : ∀ packet ∈ before, ¬ packet.Answers sequence messageId)
      (answers : answer.Answers sequence messageId)
      (few : before.countP (IpPacket.Stale sequence messageId ·) ≤
        session.maximumUnmatched)
      (progress : Progress session (before ++ [answer]) next) :
      Correlates session sequence messageId packets next
        (.returned (verdict answer))
  | overrun {before after : List IpPacket} {next : IpSession}
      (split : packets = before ++ after)
      (skipped : ∀ packet ∈ before, ¬ packet.Answers sequence messageId)
      (many : before.countP (IpPacket.Stale sequence messageId ·) =
        session.maximumUnmatched + 1)
      (progress : Progress session before next) :
      Correlates session sequence messageId packets next
        (.returned (.error .sequence))
  | ended {next : IpSession}
      (skipped : ∀ packet ∈ packets, ¬ packet.Answers sequence messageId)
      (few : packets.countP (IpPacket.Stale sequence messageId ·) ≤
        session.maximumUnmatched)
      (published : SamePublished next (session.offers packets)) :
      Correlates session sequence messageId packets next
        (.returned (.error (.io .unexpectedEof)))

theorem receive_ended {session : IpSession} (husable : session.usable = true)
    (hawaits : session.stream.awaits = []) (hinput : session.stream.input = []) :
    session.receive.2 = .returned (.error (.io .unexpectedEof)) ∧
      SamePublished session.receive.1 session := by
  have hshort : session.stream.input.length < headerSize := by
    rw [hinput]
    decide
  rw [receive, if_neg (not_not.mpr husable), receiveUnbounded,
    awaited_failed (Duplex.readExact_eof hawaits .header hshort)]
  exact ⟨rfl, rfl, rfl, rfl, rfl, rfl⟩

theorem exchangeLoop_correlates {session current : IpSession}
    {sequence : UInt16} {messageId : UInt8} {seen packets : List IpPacket}
    {bound unmatched : Nat} (hprogress : Progress session seen current)
    (husable : session.usable = true)
    (hinput : current.stream.input = encodings packets)
    (haccepts : ∀ packet ∈ packets, session.Accepts packet)
    (hbound : packets.length < bound)
    (hskipped : ∀ packet ∈ seen, ¬ packet.Answers sequence messageId)
    (hcount : seen.countP (IpPacket.Stale sequence messageId ·) = unmatched)
    (hfew : unmatched ≤ session.maximumUnmatched) :
    Correlates session sequence messageId (seen ++ packets)
      (exchangeLoop sequence messageId bound unmatched current).1
      (exchangeLoop sequence messageId bound unmatched current).2 := by
  induction packets generalizing seen current bound unmatched with
  | nil =>
      obtain ⟨bound, rfl⟩ : ∃ more, bound = more + 1 :=
        ⟨bound - 1, by omega⟩
      obtain ⟨hflow, hqueue⟩ := receive_ended
        (hprogress.usable.trans husable) hprogress.awaits hinput
      rw [exchangeLoop]
      generalize current.receive = received at hflow hqueue ⊢
      obtain ⟨next, flow⟩ := received
      dsimp only at hflow
      subst hflow
      rw [List.append_nil]
      exact .ended hskipped (by omega) (hqueue.trans hprogress.published)
  | cons packet packets ih =>
      obtain ⟨bound, rfl⟩ : ∃ more, bound = more + 1 :=
        ⟨bound - 1, by omega⟩
      have haccepted := haccepts packet List.mem_cons_self
      have hothers : ∀ other ∈ packets, session.Accepts other :=
        fun other hother => haccepts other (List.mem_cons_of_mem _ hother)
      obtain ⟨hflow, htook⟩ := receive_encoding
        (hprogress.usable.trans husable) hprogress.awaits
        (haccepted.of_progress hprogress) hinput
      have hrest := List.append_cancel_left
        (htook.reads.input.symm.trans hinput)
      rw [exchangeLoop]
      generalize current.receive = received at hflow htook hrest ⊢
      obtain ⟨next, flow⟩ := received
      dsimp only at hflow htook hrest
      subst hflow
      dsimp only
      rw [if_neg (not_not.mpr (haccepted.version.trans
        (hprogress.protocolVersion.symm.trans htook.protocolVersion.symm)))]
      have hsplit : seen ++ packet :: packets = seen ++ [packet] ++ packets := by
        simp
      by_cases hpublish : packet.messageType = .publish
      · -- the packet is offered and does not count
        have hanswers : ¬ packet.Answers sequence messageId :=
          fun hanswers => hanswers.1 hpublish
        have hstale : ¬ packet.Stale sequence messageId :=
          fun hstale => hstale.1 hpublish
        rw [if_pos hpublish, hsplit]
        refine ih (hprogress.publish htook hpublish) ?_ hothers ?_ ?_ ?_ hfew
        · rw [retainPublished_rest]
          exact hrest
        · exact Nat.lt_of_succ_lt_succ hbound
        · exact List.forall_mem_append.mpr
            ⟨hskipped, List.forall_mem_singleton.mpr hanswers⟩
        · simp [hstale, hcount]
      rw [if_neg hpublish]
      by_cases hother : packet.sequence ≠ sequence ∨
          packet.messageId ≠ messageId
      · have hanswers : ¬ packet.Answers sequence messageId :=
          fun hanswers => hother.elim (· hanswers.2.1) (· hanswers.2.2)
        have hstale : packet.Stale sequence messageId := ⟨hpublish, hother⟩
        have hnext := hprogress.other htook hpublish
          (saturatingAdd next.unmatchedSkipped 1)
        have hskipped' := List.forall_mem_append.mpr
          ⟨hskipped, List.forall_mem_singleton.mpr hanswers⟩
        have hcount' : (seen ++ [packet]).countP
            (IpPacket.Stale sequence messageId ·) = unmatched + 1 := by
          simp [hstale, hcount]
        have hmaximum :=
          htook.maximumUnmatched.trans hprogress.maximumUnmatched
        rw [if_pos hother, hsplit]
        split_ifs with hover
        · refine .overrun rfl hskipped' ?_ hnext
          omega
        · exact ih hnext hrest hothers (Nat.lt_of_succ_lt_succ hbound)
            hskipped' hcount' (by omega)
      · rw [if_neg hother]
        rw [not_or, not_not, not_not] at hother
        exact .answered rfl hskipped ⟨hpublish, hother⟩ (by omega)
          (hprogress.other htook hpublish next.unmatchedSkipped)

/-! ## The whole exchange -/

structure Sent (packet : IpPacket) (session next : IpSession) : Prop where
  writes : Duplex.Writes packet.encoding session.stream next.stream
  awaits : next.stream.awaits = []
  rest : next = { session with
    stream := next.stream, nextSequence := session.nextSequence + 1 }

theorem writePacket_ready {stream : Duplex AwaitPoint}
    (hawaits : stream.awaits = []) (encoded : Bytes) :
    (writePacket encoded stream).2 = .done () ∧
      Duplex.Writes encoded stream (writePacket encoded stream).1 ∧
      (writePacket encoded stream).1.awaits = [] := by
  obtain ⟨hdone, hwrites, hend⟩ :=
    Duplex.writeAll_ready hawaits AwaitPoint.write encoded
  rw [writePacket]
  generalize stream.writeAll .write encoded = written at hdone hwrites hend ⊢
  obtain ⟨middle, outcome⟩ := written
  dsimp only at hdone hwrites hend
  subst hdone
  obtain ⟨hdone, hflush, hend⟩ := Duplex.flush_ready hend AwaitPoint.flush
  exact ⟨hdone, List.append_nil encoded ▸ hwrites.trans hflush, hend⟩

theorem send_ready {session : IpSession} (husable : session.usable = true)
    (hawaits : session.stream.awaits = []) (messageType : MessageType)
    (messageId : UInt8) {body : Bytes}
    (hbody : body.length ≤ maximumIpBodyBytes) :
    (session.send messageType messageId body).2 =
        .returned (.ok session.nextSequence) ∧
      Sent (session.outgoing messageType messageId body) session
        (session.send messageType messageId body).1 := by
  have hencode := session.encode_outgoing messageType messageId hbody
  obtain ⟨hdone, hwrites, hend⟩ := writePacket_ready hawaits
    (session.outgoing messageType messageId body).encoding
  unfold outgoing at hencode hdone hwrites hend ⊢
  rw [send, if_neg (not_not.mpr husable), if_neg (Nat.not_lt.mpr hbody)]
  dsimp only
  rw [hencode]
  dsimp only
  generalize writePacket _ session.stream = written at hdone hwrites hend ⊢
  obtain ⟨stream, outcome⟩ := written
  dsimp only at hdone hwrites hend
  subst hdone
  exact ⟨rfl, hwrites, hend, rfl⟩

theorem Sent.progress {packet : IpPacket} {session next : IpSession}
    (h : Sent packet session next) : Progress next [] next :=
  ⟨.refl _, h.awaits, .refl next, rfl, rfl, rfl, rfl⟩

theorem Sent.usable {packet : IpPacket} {session next : IpSession}
    (h : Sent packet session next) : next.usable = session.usable :=
  (congrArg IpSession.usable h.rest :)

theorem Sent.maximumUnmatched {packet : IpPacket} {session next : IpSession}
    (h : Sent packet session next) :
    next.maximumUnmatched = session.maximumUnmatched :=
  (congrArg IpSession.maximumUnmatched h.rest :)

theorem Sent.samePublished {packet : IpPacket} {session next : IpSession}
    (h : Sent packet session next) : SamePublished next session := by
  rw [h.rest]
  exact ⟨rfl, rfl, rfl, rfl, rfl⟩

theorem Accepts.of_sent {packet other : IpPacket} {session next : IpSession}
    (h : session.Accepts other) (hsent : Sent packet session next) :
    next.Accepts other := by
  rw [hsent.rest]
  exact ⟨h.version, h.body, h.encodable⟩

theorem length_le_encodings (packets : List IpPacket) :
    packets.length ≤ (encodings packets).length := by
  induction packets with
  | nil => rfl
  | cons packet packets ih =>
      rw [encodings_cons, List.length_append, List.length_cons,
        IpPacket.length_encoding]
      unfold headerSize
      omega

theorem exchange_correlates_sent {session : IpSession}
    (husable : session.usable = true)
    (hawaits : session.stream.awaits = []) (messageId : UInt8) {body : Bytes}
    (hbody : body.length ≤ maximumIpBodyBytes) {packets : List IpPacket}
    (hinput : session.stream.input = encodings packets)
    (haccepts : ∀ packet ∈ packets, session.Accepts packet) :
    ∃ sent, Sent (session.outgoing .request messageId body) session sent ∧
      Correlates sent session.nextSequence messageId packets
        (session.exchangeUnchecked messageId body).1
        (session.exchangeUnchecked messageId body).2 := by
  obtain ⟨hflow, hsent⟩ := send_ready husable hawaits .request messageId hbody
  rw [exchangeUnchecked, exchangeUncheckedWithoutTotalTimeout]
  generalize session.send .request messageId body = request at hflow hsent ⊢
  obtain ⟨sent, flow⟩ := request
  dsimp only at hflow hsent
  subst hflow
  dsimp only
  have hstream : sent.stream.input = encodings packets :=
    hsent.writes.input.trans hinput
  have hbound : packets.length < sent.stream.input.length + 1 := by
    rw [hstream]
    exact Nat.lt_succ_of_le (length_le_encodings packets)
  have hcorrelates : Correlates sent session.nextSequence messageId packets
      (exchangeLoop session.nextSequence messageId
        (sent.stream.input.length + 1) 0 sent).1
      (exchangeLoop session.nextSequence messageId
        (sent.stream.input.length + 1) 0 sent).2 :=
    exchangeLoop_correlates hsent.progress (hsent.usable.trans husable)
      hstream (fun packet hpacket => (haccepts packet hpacket).of_sent hsent)
      hbound (by simp) rfl (Nat.zero_le _)
  generalize exchangeLoop session.nextSequence messageId
    (sent.stream.input.length + 1) 0 sent = exchange at hcorrelates ⊢
  obtain ⟨next, flow⟩ := exchange
  cases hcorrelates with
  | answered split skipped answers few progress =>
      exact ⟨sent, hsent, .answered split skipped answers few progress⟩
  | overrun split skipped many progress =>
      exact ⟨sent, hsent, .overrun split skipped many progress⟩
  | ended skipped few published =>
      exact ⟨sent, hsent, .ended skipped few published⟩

/-- The packets before the first answer, and how many of them are stale. -/
def unanswered (sequence : UInt16) (messageId : UInt8)
    (packets : List IpPacket) : List IpPacket :=
  packets.takeWhile (¬ IpPacket.Answers sequence messageId ·)

def staleCount (sequence : UInt16) (messageId : UInt8)
    (packets : List IpPacket) : Nat :=
  packets.countP (IpPacket.Stale sequence messageId ·)

theorem unanswered_append {sequence : UInt16} {messageId : UInt8}
    {before : List IpPacket}
    (h : ∀ packet ∈ before, ¬ packet.Answers sequence messageId)
    (after : List IpPacket) :
    unanswered sequence messageId (before ++ after) =
      before ++ unanswered sequence messageId after := by
  apply List.takeWhile_append_of_pos
  simpa using h

theorem unanswered_cons {sequence : UInt16} {messageId : UInt8}
    {answer : IpPacket} (h : answer.Answers sequence messageId)
    (after : List IpPacket) :
    unanswered sequence messageId (answer :: after) = [] := by
  apply List.takeWhile_cons_of_neg
  simpa using h

theorem verdict_ok_iff (answer packet : IpPacket) :
    verdict answer = .ok packet ↔
      packet = answer ∧ answer.messageType = .response ∧ answer.status = 0 := by
  unfold verdict
  split_ifs with hnak hresponse hstatus
  · simp [hnak]
  · simp [hresponse]
  · simp [hstatus]
  · simp [not_not.mp hresponse, not_not.mp hstatus, eq_comm]

theorem verdict_ne_sequence (answer : IpPacket) :
    verdict answer ≠ .error .sequence := by
  unfold verdict
  split_ifs <;> simp

section Outcomes

variable {session next : IpSession} {sequence : UInt16} {messageId : UInt8}
  {packets : List IpPacket} {flow : Flow IpPacket}

theorem Correlates.sequence_iff
    (h : Correlates session sequence messageId packets next flow) :
    flow = .returned (.error .sequence) ↔ session.maximumUnmatched <
      staleCount sequence messageId (unanswered sequence messageId packets) := by
  cases h with
  | answered split skipped answers few progress =>
      rw [split, unanswered_append skipped, unanswered_cons answers,
        List.append_nil]
      refine iff_of_false (fun heq => ?_) (Nat.not_lt.mpr few)
      injection heq with heq
      exact verdict_ne_sequence _ heq
  | overrun split skipped many progress =>
      rw [split, unanswered_append skipped, staleCount, List.countP_append,
        many]
      exact iff_of_true rfl (by omega)
  | ended skipped few published =>
      rw [← List.append_nil packets, unanswered_append skipped, unanswered,
        List.takeWhile_nil, List.append_nil]
      exact iff_of_false (by simp) (Nat.not_lt.mpr few)

theorem Correlates.answer {answer : IpPacket} {after : List IpPacket}
    (h : Correlates session sequence messageId packets next flow)
    (hfew : staleCount sequence messageId
      (unanswered sequence messageId packets) ≤ session.maximumUnmatched)
    (hsplit : packets =
      unanswered sequence messageId packets ++ answer :: after) :
    flow = .returned (verdict answer) ∧ Progress session
      (unanswered sequence messageId packets ++ [answer]) next := by
  cases h with
  | answered split skipped answers few progress =>
      rw [split, unanswered_append skipped, unanswered_cons answers,
        List.append_nil] at hsplit ⊢
      have hanswer := (List.cons.inj (List.append_cancel_left hsplit)).1
      rw [← hanswer]
      exact ⟨rfl, progress⟩
  | overrun split skipped many progress =>
      rw [split, unanswered_append skipped, staleCount, List.countP_append,
        many] at hfew
      omega
  | ended skipped few published =>
      have hall : unanswered sequence messageId packets = packets := by
        rw [← List.append_nil packets, unanswered_append skipped]
        rfl
      rw [hall] at hsplit
      have hlength := congrArg List.length hsplit
      simp at hlength

theorem Correlates.eof
    (h : Correlates session sequence messageId packets next flow)
    (hfew : staleCount sequence messageId
      (unanswered sequence messageId packets) ≤ session.maximumUnmatched)
    (hall : unanswered sequence messageId packets = packets) :
    flow = .returned (.error (.io .unexpectedEof)) ∧
      SamePublished next (session.offers packets) := by
  cases h with
  | answered split skipped answers few progress =>
      rw [split, unanswered_append skipped, unanswered_cons answers] at hall
      have hlength := congrArg List.length hall
      simp at hlength
  | overrun split skipped many progress =>
      rw [split, unanswered_append skipped, staleCount, List.countP_append,
        many] at hfew
      omega
  | ended skipped few published => exact ⟨rfl, published⟩

theorem Correlates.over
    (h : Correlates session sequence messageId packets next flow)
    (hmany : session.maximumUnmatched < staleCount sequence messageId
      (unanswered sequence messageId packets)) :
    ∃ seen, seen <+: unanswered sequence messageId packets ∧
      staleCount sequence messageId seen = session.maximumUnmatched + 1 ∧
      Progress session seen next := by
  cases h with
  | answered split skipped answers few progress =>
      rw [split, unanswered_append skipped, unanswered_cons answers,
        List.append_nil] at hmany
      exact absurd hmany (Nat.not_lt.mpr few)
  | @overrun before after next split skipped many progress =>
      refine ⟨before, ?_, many, progress⟩
      rw [split, unanswered_append skipped]
      exact List.prefix_append _ _
  | ended skipped few published =>
      rw [← List.append_nil packets, unanswered_append skipped, unanswered,
        List.takeWhile_nil, List.append_nil] at hmany
      exact absurd hmany (Nat.not_lt.mpr few)

end Outcomes

end IpSession

end HartLink.Ip

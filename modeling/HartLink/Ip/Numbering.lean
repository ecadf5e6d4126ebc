import Mathlib.Data.List.DropRight
import HartLink.Ip.Alignment

/-!
# Numbered requests

A request gets its number when it is sent, and the number is used up when the send
returns.  Whoever drops a send while its flush is pending has written a request
whose number the next one takes again.
-/

namespace HartLink.Ip

open HartLink.Foundation
open HartLink.Operation

namespace IpSession

/-! ## What is on the wire -/

def put (session : IpSession) (call : Call × List Await) : Bytes :=
  (session.perform call).1.stream.written.drop session.stream.written.length

/-- The number of the packet that a call has written as a whole. -/
def writtenSequence (session : IpSession) (call : Call × List Await) :
    Option UInt16 :=
  match IpPacket.decode (session.put call) maximumIpBodyBytes with
  | .ok packet => some packet.sequence
  | .error _ => none

/-- The numbers of the packets that calls have written, in order. -/
def writtenSequences (session : IpSession) :
    List (Call × List Await) → List UInt16
  | [] => []
  | call :: calls =>
      (session.writtenSequence call).toList ++
        (session.perform call).1.writtenSequences calls

/-- The call is dropped while the flush behind its whole packet is pending. -/
def DropsFlush (session : IpSession) (call : Call × List Await) : Prop :=
  ∃ moved, (AwaitPoint.flush, Await.interrupted .dropped moved) ∈
    (session.perform call).1.stream.log.drop session.stream.log.length

def NeverDropsFlush (session : IpSession) : List (Call × List Await) → Prop
  | [] => True
  | call :: calls =>
      ¬ session.DropsFlush call ∧ (session.perform call).1.NeverDropsFlush calls

/-! ## The receive loop -/

theorem receive_nextSequence (session : IpSession) :
    session.receive.1.nextSequence = session.nextSequence := by
  by_cases husable : session.usable = true
  · have hreceives := receives husable
    generalize session.receive = received at hreceives ⊢
    obtain ⟨next, flow⟩ := received
    cases hreceives <;> rfl
  · rw [receive, if_pos husable]

theorem exchangeLoop_nextSequence (sequence : UInt16) (messageId : UInt8)
    (bound unmatched : Nat) (session : IpSession) :
    (exchangeLoop sequence messageId bound unmatched session).1.nextSequence =
      session.nextSequence := by
  induction bound generalizing unmatched session with
  | zero => rfl
  | succ bound ih =>
      have hreceive := session.receive_nextSequence
      rw [exchangeLoop]
      generalize session.receive = received at hreceive ⊢
      obtain ⟨next, ⟨error | packet⟩ | interruption⟩ := received
      · exact hreceive
      · dsimp only at hreceive ⊢
        split_ifs
        · exact hreceive
        · rw [ih, retainPublished_rest]
          exact hreceive
        · exact hreceive
        · rw [ih]
          exact hreceive
        · exact hreceive
      · exact hreceive

theorem exchangeLoop_ok {sequence : UInt16} {messageId : UInt8}
    {bound unmatched : Nat} {session : IpSession} {packet : IpPacket}
    (h : (exchangeLoop sequence messageId bound unmatched session).2 =
      .returned (.ok packet)) :
    packet.Answers sequence messageId := by
  induction bound generalizing unmatched session with
  | zero => cases h
  | succ bound ih =>
      rw [exchangeLoop] at h
      generalize session.receive = received at h
      obtain ⟨next, ⟨error | received⟩ | interruption⟩ := received
      · cases h
      · dsimp only at h
        split_ifs at h with hversion hpublish hother hover
        · cases h
        · exact ih h
        · cases h
        · exact ih h
        · rw [not_or, not_not, not_not] at hother
          have hpacket : received = packet := by
            injection h with h
            unfold verdict at h
            split_ifs at h
            injection h
          exact hpacket ▸ ⟨hpublish, hother⟩
      · cases h

theorem receive_written (session : IpSession) :
    (session.receive.1.usable = false ∧
        ∀ packet, session.receive.2 ≠ .returned (.ok packet)) ∨
      session.receive.1.stream.written = session.stream.written := by
  by_cases husable : session.usable = true
  · have hreceives := receives husable
    generalize session.receive = received at hreceives ⊢
    obtain ⟨next, flow⟩ := received
    cases hreceives with
    | whole reads => exact .inr reads.written
    | lost => exact .inl ⟨rfl, fun packet h => by cases h⟩
    | interrupted reads => exact .inr reads.written
  · rw [receive, if_pos husable]
    exact .inr rfl

theorem exchangeLoop_written (sequence : UInt16) (messageId : UInt8)
    (bound unmatched : Nat) (session : IpSession) :
    (exchangeLoop sequence messageId bound unmatched session).1.usable = false ∨
      (exchangeLoop sequence messageId bound unmatched
        session).1.stream.written = session.stream.written := by
  induction bound generalizing unmatched session with
  | zero => exact .inr rfl
  | succ bound ih =>
      have hreceive := session.receive_written
      rw [exchangeLoop]
      generalize session.receive = received at hreceive ⊢
      obtain ⟨next, ⟨error | packet⟩ | interruption⟩ := received
      · exact hreceive.imp_left And.left
      · have hwritten := hreceive.resolve_left fun h => h.2 packet rfl
        dsimp only at hwritten ⊢
        rw [← hwritten]
        split_ifs
        · exact .inr rfl
        · have hstream := congrArg IpSession.stream
            (next.retainPublished_rest packet)
          have hlater := ih unmatched (next.retainPublished packet)
          rw [hstream] at hlater
          exact hlater
        · exact .inr rfl
        · exact ih ..
        · exact .inr rfl
      · exact hreceive.imp_left And.left

/-! ## What a call does with the numbers -/

/-- What an operation has written, and the number that comes next. -/
inductive Numbers (session next : IpSession) : Prop
  | kept {bytes : Bytes} (usable : next.usable = true → session.usable = true)
      (written : next.stream.written = session.stream.written ++ bytes)
      (short : bytes.length < headerSize ∨ bytes.length < declaredLength bytes)
      (number : next.nextSequence = session.nextSequence)
  | sent {packet : IpPacket} (usable : session.usable = true)
      (written : next.stream.written =
        session.stream.written ++ packet.encoding)
      (body : packet.body.length ≤ maximumIpBodyBytes)
      (sequence : packet.sequence = session.nextSequence)
      (number : next.nextSequence = session.nextSequence + 1)
  | lost (unusable : next.usable = false)
  | withdrawn {moved : Nat} (usable : session.usable = true)
      (log : (AwaitPoint.flush, Await.interrupted .dropped moved) ∈
        next.stream.log.drop session.stream.log.length)

theorem Numbers.of_written {session next : IpSession}
    (husable : next.usable = true → session.usable = true)
    (hwritten : next.stream.written = session.stream.written)
    (hnumber : next.nextSequence = session.nextSequence) :
    Numbers session next :=
  @Numbers.kept session next [] husable
    (hwritten.trans (List.append_nil _).symm) (.inl (by decide)) hnumber

theorem Numbers.refl (session : IpSession) : Numbers session session :=
  .of_written id rfl rfl

theorem Numbers.usable {session next : IpSession} (h : Numbers session next)
    (husable : next.usable = true) : session.usable = true := by
  cases h with
  | kept usable => exact usable husable
  | sent usable => exact usable
  | lost unusable =>
      rw [unusable] at husable
      contradiction
  | withdrawn usable => exact usable

theorem mem_drop_of_disturbed {point : AwaitPoint}
    {interruption : Interruption} {moved : Nat}
    {stream next : Duplex AwaitPoint}
    (h : Duplex.Disturbed point interruption moved stream next) :
    (point, Await.interrupted interruption moved) ∈
      next.log.drop stream.log.length := by
  obtain ⟨middle, ⟨entries, hmiddle, -⟩, hlog⟩ := h
  rw [hlog, hmiddle, List.append_assoc, List.drop_left]
  exact List.mem_append_right entries (List.mem_singleton_self _)

theorem SendsPacket.numbers {session next : IpSession} {packet : IpPacket}
    {flow : Flow UInt16} (h : SendsPacket session packet next flow)
    (hsequence : packet.sequence = session.nextSequence)
    (hflow : flow ≠ .interrupted .outerTimer) : Numbers session next := by
  cases h with
  | refused => exact .refl session
  | sent usable short writes log =>
      exact .sent usable writes.written short hsequence rfl
  | lost log => exact .lost rfl
  | @interrupted stream point interruption moved bytes usable short writes log
      part outside =>
      obtain rfl : interruption = .dropped := by
        cases interruption with
        | innerTimer => exact absurd rfl outside
        | outerTimer => exact absurd rfl hflow
        | dropped => rfl
      by_cases hbytes : bytes = packet.encoding
      · -- only the flush stands behind the whole packet
        obtain ⟨rfl, -⟩ : point = .flush ∧ bytes = packet.encoding := by
          refine part.resolve_right ?_
          rintro ⟨-, htaken, hmoved⟩
          have hlength := packet.length_encoding
          have hlengths := congrArg List.length (htaken.symm.trans hbytes)
          have hheader : headerSize = 8 := rfl
          rw [List.length_take] at hlengths
          omega
        exact .withdrawn usable (mem_drop_of_disturbed log)
      · exact .kept (fun _ => usable) writes.written
          (written_short short part hbytes) rfl

theorem numbers_exchangeUnchecked (session : IpSession) (messageId : UInt8)
    (body : Bytes) :
    Numbers session (session.exchangeUnchecked messageId body).1 := by
  have hsends := session.sendsPacket .request messageId body
  have hnumbers := fun hflow => hsends.numbers rfl hflow
  rw [exchangeUnchecked, exchangeUncheckedWithoutTotalTimeout]
  generalize session.send .request messageId body = request
    at hsends hnumbers ⊢
  obtain ⟨sent, flow⟩ := request
  cases hsends with
  | refused => exact .refl _
  | lost => exact .lost rfl
  | @interrupted stream point interruption =>
      cases interruption with
      | innerTimer => exact hnumbers (by simp)
      | outerTimer => exact .lost rfl
      | dropped => exact hnumbers (by simp)
  | @sent stream usable short writes =>
      dsimp only
      have hnumber := exchangeLoop_nextSequence session.nextSequence messageId
        (stream.input.length + 1) 0
        { session with stream, nextSequence := session.nextSequence + 1 }
      have hwritten := exchangeLoop_written session.nextSequence messageId
        (stream.input.length + 1) 0
        { session with stream, nextSequence := session.nextSequence + 1 }
      generalize exchangeLoop session.nextSequence messageId
        (stream.input.length + 1) 0 _ = exchange at hnumber hwritten ⊢
      obtain ⟨next, flow⟩ := exchange
      have hnext : Numbers session next := by
        rcases hwritten with hunusable | hwritten
        · exact .lost hunusable
        · have hpacket := hwritten.trans writes.written
          exact .sent usable hpacket short rfl hnumber
      obtain result | interruption := flow
      · exact hnext
      · cases interruption with
        | innerTimer => exact hnext
        | outerTimer => exact .lost rfl
        | dropped => exact hnext

theorem Exchanges.numbers {session next : IpSession} {flow : Flow IpPacket}
    (h : Exchanges session next flow) : Numbers session next := by
  cases h with
  | refused => exact .refl session
  | @exchanged messageId body isOpen =>
      cases session.numbers_exchangeUnchecked messageId body with
      | kept usable written short number =>
          exact .kept usable written short number
      | sent usable written body sequence number =>
          exact .sent usable written body sequence number
      | lost unusable => exact .lost unusable
      | withdrawn usable log => exact .withdrawn usable log

theorem Numbers.of_under {session next : IpSession} {awaits : List Await}
    (h : Numbers (session.under awaits) next) :
    Numbers session (next.under []) := by
  cases h with
  | kept usable written short number => exact .kept usable written short number
  | sent usable written body sequence number =>
      exact .sent usable written body sequence number
  | lost unusable => exact .lost unusable
  | withdrawn usable log => exact .withdrawn usable log

theorem numbers_receive (session : IpSession) :
    Numbers session session.receive.1 := by
  by_cases husable : session.usable = true
  · rcases session.receive_written with hlost | hwritten
    · exact .lost hlost.1
    · exact .of_written (fun _ => husable) hwritten
        session.receive_nextSequence
  · rw [receive, if_pos husable]
    exact .refl session

theorem numbers_perform (session : IpSession) (call : Call × List Await) :
    Numbers session (session.perform call).1 := by
  obtain ⟨call, awaits⟩ := call
  have hexcludes := session.excludes_withoutOuterTimer awaits
  cases call with
  | send messageType messageId body =>
      exact ((sendsPacket _ messageType messageId body).numbers rfl
        (send_excludes hexcludes messageType messageId body)).of_under
  | receive => exact (numbers_receive _).of_under
  | openSession milliseconds =>
      exact (exchanges_openSession ..).numbers.of_under
  | request messageId body => exact (exchanges_request ..).numbers.of_under
  | keepAlive => exact (exchanges_request ..).numbers.of_under
  | tokenPassing body => exact (exchanges_request ..).numbers.of_under
  | closeSession => exact (exchanges_closeSession ..).numbers.of_under

/-! ## Runs of calls -/

theorem IpPacket.decode_short {bytes : Bytes}
    (h : bytes.length < headerSize ∨ bytes.length < declaredLength bytes)
    (maximumBody : Nat) (packet : IpPacket) :
    IpPacket.decode bytes maximumBody ≠ .ok packet := by
  rw [IpPacket.decode]
  by_cases hheader : bytes.length < headerSize
  · simp [hheader]
  · have hlength : declaredLength bytes ≠ bytes.length :=
      (h.resolve_left hheader).ne'
    simp [hheader, hlength]

theorem put_eq {session : IpSession} {call : Call × List Await}
    {bytes : Bytes} (h : (session.perform call).1.stream.written =
      session.stream.written ++ bytes) : session.put call = bytes := by
  rw [put, h, List.drop_left]

/-- A call writes a packet with the next number and takes it, or does neither. -/
theorem perform_numbered {session : IpSession} {call : Call × List Await}
    (hflush : ¬ session.DropsFlush call)
    (husable : (session.perform call).1.usable = true) :
    (session.writtenSequence call = none ∧
        (session.perform call).1.nextSequence = session.nextSequence) ∨
      (session.writtenSequence call = some session.nextSequence ∧
        (session.perform call).1.nextSequence = session.nextSequence + 1) := by
  cases session.numbers_perform call with
  | kept _ written short number =>
      refine .inl ⟨?_, number⟩
      rw [writtenSequence, put_eq written]
      cases hdecode : IpPacket.decode _ maximumIpBodyBytes with
      | error error => rfl
      | ok packet =>
          exact absurd hdecode (IpPacket.decode_short short _ packet)
  | sent _ written body sequence number =>
      refine .inr ⟨?_, number⟩
      rw [writtenSequence, put_eq written, IpPacket.decode_encoding body body]
      exact congrArg some sequence
  | lost unusable =>
      rw [unusable] at husable
      contradiction
  | withdrawn _ log => exact absurd ⟨_, log⟩ hflush

theorem usable_of_performs {session : IpSession}
    {calls : List (Call × List Await)}
    (h : (session.performs calls).1.usable = true) :
    session.usable = true := by
  induction calls generalizing session with
  | nil => exact h
  | cons call calls ih => exact (session.numbers_perform call).usable (ih h)

/-- The packets on the wire have consecutive numbers, up to the next one. -/
theorem writtenSequences_counts {session : IpSession}
    {calls : List (Call × List Await)} (hflush : session.NeverDropsFlush calls)
    (husable : (session.performs calls).1.usable = true) :
    session.writtenSequences calls =
        (List.range (session.writtenSequences calls).length).map
          (fun index => session.nextSequence + UInt16.ofNat index) ∧
      (session.performs calls).1.nextSequence = session.nextSequence +
        UInt16.ofNat (session.writtenSequences calls).length := by
  induction calls generalizing session with
  | nil => exact ⟨rfl, (UInt16.add_zero _).symm⟩
  | cons call calls ih =>
      obtain ⟨hcall, hcalls⟩ := hflush
      obtain ⟨hnumbers, hnext⟩ := ih hcalls husable
      have hfirst := perform_numbered hcall (usable_of_performs husable)
      have hperforms : (session.performs (call :: calls)).1 =
          ((session.perform call).1.performs calls).1 := rfl
      rw [hperforms, hnext, writtenSequences]
      generalize (session.perform call).1.writtenSequences calls = numbers
        at hnumbers ⊢
      rcases hfirst with ⟨hnone, hsame⟩ | ⟨hsome, hone⟩
      · rw [hnone, Option.toList_none, List.nil_append, ← hsame]
        exact ⟨hnumbers, rfl⟩
      · have hshift : ∀ index : Nat, session.nextSequence + 1 +
            UInt16.ofNat index =
              session.nextSequence + UInt16.ofNat (index + 1) := by
          intro index
          rw [UInt16.add_assoc, UInt16.add_comm 1, UInt16.ofNat_add]
          rfl
        rw [hone] at hnumbers ⊢
        rw [hsome, Option.toList_some]
        refine ⟨?_, hshift numbers.length⟩
        rw [List.singleton_append, List.length_cons, List.range_succ_eq_map,
          List.map_cons, List.map_map]
        refine congrArg₂ List.cons (UInt16.add_zero _).symm ?_
        rw [hnumbers, List.length_map, List.length_range]
        exact List.map_congr_left fun index _ => hshift index

/-- The next number is none of the latest ones on the wire. -/
theorem nextSequence_fresh {session : IpSession}
    {calls : List (Call × List Await)} (hflush : session.NeverDropsFlush calls)
    (husable : (session.performs calls).1.usable = true) :
    (session.performs calls).1.nextSequence ∉
      (session.writtenSequences calls).rtake 65535 := by
  obtain ⟨hnumbers, hnext⟩ := writtenSequences_counts hflush husable
  intro hmem
  rw [List.rtake] at hmem
  generalize session.writtenSequences calls = numbers at hnumbers hnext hmem
  rw [hnumbers, ← List.map_drop, List.mem_map] at hmem
  obtain ⟨index, hindex, hsame⟩ := hmem
  rw [List.length_map, List.length_range] at hindex
  have hrange : numbers.length - 65535 ≤ index ∧ index < numbers.length := by
    obtain ⟨offset, hoffset, hvalue⟩ := List.mem_drop_iff_getElem.mp hindex
    rw [List.getElem_range] at hvalue
    rw [List.length_range] at hoffset
    omega
  have hnumber := congrArg UInt16.toNat (hsame.trans hnext)
  rw [UInt16.toNat_add, UInt16.toNat_add, UInt16.toNat_ofNat',
    UInt16.toNat_ofNat'] at hnumber
  omega

/-! ## What an exchange returns -/

theorem exchangeUnchecked_ok {session : IpSession} {messageId : UInt8}
    {body : Bytes} {packet : IpPacket}
    (h : (session.exchangeUnchecked messageId body).2 =
      .returned (.ok packet)) :
    session.usable = true ∧ packet.sequence = session.nextSequence := by
  have hsends := session.sendsPacket .request messageId body
  rw [exchangeUnchecked, exchangeUncheckedWithoutTotalTimeout] at h
  generalize session.send .request messageId body = request at hsends h
  obtain ⟨sent, flow⟩ := request
  cases hsends with
  | refused => cases h
  | lost => cases h
  | @interrupted stream point interruption =>
      cases interruption
      all_goals cases h
  | @sent stream usable =>
      dsimp only at h
      have hanswer := @exchangeLoop_ok session.nextSequence messageId
        (stream.input.length + 1) 0
        { session with stream, nextSequence := session.nextSequence + 1 }
      generalize exchangeLoop session.nextSequence messageId
        (stream.input.length + 1) 0 _ = exchange at hanswer h
      obtain ⟨next, result | interruption⟩ := exchange
      · exact ⟨usable, (hanswer h).2.1⟩
      · cases interruption
        all_goals cases h

theorem Exchanges.ok {session next : IpSession} {flow : Flow IpPacket}
    {packet : IpPacket} (h : Exchanges session next flow)
    (hflow : flow = .returned (.ok packet)) :
    session.usable = true ∧ packet.sequence = session.nextSequence := by
  cases h with
  | refused => cases hflow
  | exchanged => exact exchangeUnchecked_ok hflow

theorem perform_exchange_ok {session : IpSession} {call : Call}
    (hcall : ¬ call.IsTransfer) {awaits : List Await} {packet : IpPacket}
    (h : (session.perform (call, awaits)).2 = .returned (.ok (.packet packet))) :
    session.usable = true ∧ packet.sequence = session.nextSequence := by
  rcases session.act_cases awaits call with
    ⟨_, _, _, _, hsend, _⟩ | ⟨hreceive, _⟩ | ⟨_, flow, hexchanges, hflow⟩
  · exact absurd (hsend ▸ trivial) hcall
  · exact absurd (hreceive ▸ trivial) hcall
  · have hok := hflow.symm.trans h
    rcases flow with ⟨error | received⟩ | interruption
    · cases hok
    · cases hok
      exact hexchanges.ok rfl
    · cases hok

theorem SamePublished.of_progress {session sent next : IpSession}
    {packet : IpPacket} {seen : List IpPacket}
    (hsent : Sent packet session sent) (h : Progress sent seen next) :
    SamePublished next (session.offers seen) :=
  h.published.trans (hsent.samePublished.offers seen)

theorem Progress.consumed {session sent next : IpSession}
    {packet : IpPacket} {seen : List IpPacket}
    (h : Progress sent seen next) (hsent : Sent packet session sent) :
    next.stream.consumed = session.stream.consumed ++ encodings seen :=
  h.reads.consumed.trans (congrArg (· ++ _) hsent.writes.consumed)

/-- What the call returns answers none of the latest packets that were written. -/
def AnswersAfresh (session : IpSession) (calls : List (Call × List Await))
    (call : Call × List Await) : Prop :=
  ∀ packet, ((session.performs calls).1.perform call).2 =
    .returned (.ok (.packet packet)) →
      packet.sequence ∉ (session.writtenSequences calls).rtake 65535

def serving (packets : List IpPacket) : IpSession :=
  { stream := { input := encodings packets }, isOpen := true }

def earlyPackets : List IpPacket :=
  [⟨1, .publish, 3, 0, 9, [7]⟩, ⟨1, .response, keepAliveId, 0, 0, []⟩]

def givenUp : List (Call × List Await) :=
  [(.tokenPassing [1], [.ready, .ready, .interrupted .dropped 0])]

def droppedFlush : List (Call × List Await) :=
  [(.tokenPassing [1], [.ready, .interrupted .dropped 0])]

/-- The server answers the request whose flush was dropped. -/
def lateAnswer : IpPacket := ⟨1, .response, tokenPassingPdu, 0, 1, [1]⟩

end IpSession

end HartLink.Ip

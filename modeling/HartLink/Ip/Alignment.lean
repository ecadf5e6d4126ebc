import HartLink.Ip.Exchange

/-!
# Usable sessions and packet boundaries

Whether a session that says it is usable stands between two packets, in both
directions.  The session gives itself up after every error that it sees, but it
does not see that its future is dropped.
-/

namespace HartLink.Ip

open HartLink.Foundation
open HartLink.Operation

/-! ## Sequences of packets -/

def WholePackets (bytes : Bytes) : Prop :=
  ∃ packets : List Bytes, (∀ packet ∈ packets, IsPacket packet) ∧
    packets.flatten = bytes

theorem wholePackets_nil : WholePackets [] := ⟨[], by simp, rfl⟩

theorem WholePackets.concat {bytes packet : Bytes} (h : WholePackets bytes)
    (hpacket : IsPacket packet) : WholePackets (bytes ++ packet) := by
  obtain ⟨packets, hpackets, rfl⟩ := h
  refine ⟨packets ++ [packet], ?_, by simp⟩
  exact List.forall_mem_append.mpr
    ⟨hpackets, List.forall_mem_singleton.mpr hpacket⟩

theorem IsPacket.ne_nil {packet : Bytes} (h : IsPacket packet) :
    packet ≠ [] := by
  rintro rfl
  exact absurd h.1 (by decide)

/-- The first packet of a stream is determined by its header. -/
theorem IsPacket.eq_of_append {packet other rest more : Bytes}
    (h : IsPacket packet) (hother : IsPacket other)
    (heq : packet ++ rest = other ++ more) : packet = other ∧ rest = more := by
  have hlength : packet.length = other.length := by
    rw [← h.2, ← hother.2, ← declaredLength_append h.1 rest,
      ← declaredLength_append hother.1 more, heq]
  exact List.append_inj heq hlength

theorem WholePackets.of_append {bytes rest : Bytes} (h : WholePackets bytes)
    (hall : WholePackets (bytes ++ rest)) : WholePackets rest := by
  obtain ⟨packets, hpackets, rfl⟩ := h
  induction packets with
  | nil => exact hall
  | cons packet packets ih =>
      obtain ⟨hpacket, hothers⟩ := List.forall_mem_cons.mp hpackets
      apply ih hothers
      obtain ⟨all, hallPackets, heq⟩ := hall
      rw [List.flatten_cons, List.append_assoc] at heq
      cases all with
      | nil =>
          have hempty := (List.append_eq_nil_iff.mp heq.symm).1
          exact absurd hempty hpacket.ne_nil
      | cons first all =>
          obtain ⟨hfirst, hrest⟩ := List.forall_mem_cons.mp hallPackets
          exact ⟨all, hrest, (hfirst.eq_of_append hpacket heq).2⟩

theorem not_wholePackets {bytes : Bytes} (hne : bytes ≠ [])
    (hshort : bytes.length < headerSize ∨
      bytes.length < declaredLength bytes) : ¬ WholePackets bytes := by
  rintro ⟨packets, hpackets, rfl⟩
  cases packets with
  | nil => exact hne rfl
  | cons packet packets =>
      have hpacket := (List.forall_mem_cons.mp hpackets).1
      rw [List.flatten_cons, declaredLength_append hpacket.1, hpacket.2,
        List.length_append] at hshort
      have hheader := hpacket.1
      omega

/-! ## Harmless interruptions -/

/--
An await leaves the session between two packets, or makes it unusable, unless
the future is dropped there inside a packet.
-/
def Harmless : AwaitPoint × Await → Prop
  | (.write, .interrupted .dropped moved) => moved = 0
  | (.header, .interrupted .dropped moved) => moved = 0
  | (.body, .interrupted .dropped _) => False
  | (.discard, .interrupted .dropped _) => False
  | _ => True

instance : DecidablePred Harmless := by
  rintro ⟨point, await⟩
  unfold Harmless
  split <;> infer_instance

theorem harmless_of_not_dropped {entry : AwaitPoint × Await}
    (h : ∀ moved, entry.2 ≠ .interrupted .dropped moved) : Harmless entry := by
  obtain ⟨point, await⟩ := entry
  cases await with
  | ready => cases point <;> trivial
  | failed error moved => cases point <;> trivial
  | interrupted interruption moved =>
      cases interruption with
      | innerTimer => cases point <;> trivial
      | outerTimer => cases point <;> trivial
      | dropped => exact absurd rfl (h moved)

namespace IpSession

/-- Both directions of the stream are between two packets. -/
def Aligned (session : IpSession) : Prop :=
  WholePackets session.stream.consumed ∧ WholePackets session.stream.written

/-- What the session says about itself is true. -/
def Truthful (session : IpSession) : Prop :=
  session.usable = true → session.Aligned

/-- The awaits that have been added to the log. -/
def Logged (stream next : Duplex AwaitPoint)
    (entries : List (AwaitPoint × Await)) : Prop :=
  next.log = stream.log ++ entries

/-- No await that has been added to the log was harmful. -/
def Unharmed (stream next : Duplex AwaitPoint) : Prop :=
  ∃ entries, Logged stream next entries ∧ ∀ entry ∈ entries, Harmless entry

/-- One of the awaits that have been added to the log was harmful. -/
def Harmed (stream next : Duplex AwaitPoint) : Prop :=
  ∃ entries, Logged stream next entries ∧ ∃ entry ∈ entries, ¬ Harmless entry

theorem Unharmed.refl (stream : Duplex AwaitPoint) : Unharmed stream stream :=
  ⟨[], (List.append_nil _).symm, by simp⟩

theorem Unharmed.trans {stream middle next : Duplex AwaitPoint}
    (h : Unharmed stream middle) (h' : Unharmed middle next) :
    Unharmed stream next := by
  obtain ⟨first, hfirst, hfirstHarmless⟩ := h
  obtain ⟨second, hsecond, hsecondHarmless⟩ := h'
  refine ⟨first ++ second, ?_,
    List.forall_mem_append.mpr ⟨hfirstHarmless, hsecondHarmless⟩⟩
  rw [Logged, hsecond, hfirst, List.append_assoc]

theorem Unharmed.harmed {stream middle next : Duplex AwaitPoint}
    (h : Unharmed stream middle) (h' : Harmed middle next) :
    Harmed stream next := by
  obtain ⟨first, hfirst, -⟩ := h
  obtain ⟨second, hsecond, entry, hentry, hharmful⟩ := h'
  refine ⟨first ++ second, ?_, entry, List.mem_append_right first hentry,
    hharmful⟩
  rw [Logged, hsecond, hfirst, List.append_assoc]

theorem unharmed_of_undropped {stream next : Duplex AwaitPoint}
    (h : Undropped stream next) : Unharmed stream next := by
  obtain ⟨entries, hlog, hdropped⟩ := h
  exact ⟨entries, hlog,
    fun entry hentry => harmless_of_not_dropped (hdropped entry hentry)⟩

theorem unharmed_of_disturbed {point : AwaitPoint}
    {interruption : Interruption} {moved : Nat}
    {stream next : Duplex AwaitPoint}
    (h : Duplex.Disturbed point interruption moved stream next)
    (hharmless : Harmless (point, .interrupted interruption moved)) :
    Unharmed stream next := by
  obtain ⟨middle, hmiddle, hlog⟩ := h
  exact (unharmed_of_undropped (undropped_of_undisturbed hmiddle)).trans
    ⟨[_], hlog, List.forall_mem_singleton.mpr hharmless⟩

theorem harmed_of_disturbed {point : AwaitPoint}
    {interruption : Interruption} {moved : Nat}
    {stream next : Duplex AwaitPoint}
    (h : Duplex.Disturbed point interruption moved stream next)
    (hharmful : ¬ Harmless (point, .interrupted interruption moved)) :
    Harmed stream next := by
  obtain ⟨middle, hmiddle, hlog⟩ := h
  exact (unharmed_of_undropped (undropped_of_undisturbed hmiddle)).harmed
    ⟨[_], hlog, _, List.mem_singleton_self _, hharmful⟩

/-- The session is as aligned and as usable as before. -/
structure Keeps (session next : IpSession) : Prop where
  log : Unharmed session.stream next.stream
  usable : next.usable = session.usable
  kept : session.Aligned → next.Aligned

theorem Keeps.refl (session : IpSession) : Keeps session session :=
  ⟨.refl _, rfl, id⟩

theorem Keeps.of_eq {session middle next : IpSession}
    (h : Keeps session middle) (hstream : next.stream = middle.stream)
    (husable : next.usable = middle.usable) : Keeps session next := by
  refine ⟨hstream ▸ h.log, husable.trans h.usable, ?_⟩
  intro haligned
  rw [Aligned, hstream]
  exact h.kept haligned

/-- What an operation leaves behind. -/
inductive Leaves (session next : IpSession) : Prop
  | kept (keeps : Keeps session next)
  | lost (log : Unharmed session.stream next.stream)
      (unusable : next.usable = false)
  | torn (log : Harmed session.stream next.stream)
      (before : session.usable = true) (after : next.usable = true)
      (misaligned : session.Aligned → ¬ next.Aligned)

theorem Keeps.leaves {session middle next : IpSession}
    (h : Keeps session middle) (h' : Leaves middle next) :
    Leaves session next := by
  cases h' with
  | kept keeps =>
      exact .kept ⟨h.log.trans keeps.log, keeps.usable.trans h.usable,
        fun haligned => keeps.kept (h.kept haligned)⟩
  | lost log unusable => exact .lost (h.log.trans log) unusable
  | torn log before after misaligned =>
      exact .torn (h.log.harmed log) (h.usable ▸ before) after
        fun haligned => misaligned (h.kept haligned)

theorem Leaves.truthful_iff {session next : IpSession}
    (h : Leaves session next) :
    ∃ entries, Logged session.stream next.stream entries ∧
      (session.Truthful →
        (next.Truthful ↔ ∀ entry ∈ entries, Harmless entry)) := by
  cases h with
  | kept keeps =>
      obtain ⟨entries, hlog, hharmless⟩ := keeps.log
      refine ⟨entries, hlog, fun htruthful => iff_of_true ?_ hharmless⟩
      intro husable
      exact keeps.kept (htruthful (keeps.usable ▸ husable))
  | lost log unusable =>
      obtain ⟨entries, hlog, hharmless⟩ := log
      refine ⟨entries, hlog, fun _ => iff_of_true ?_ hharmless⟩
      intro husable
      rw [unusable] at husable
      contradiction
  | torn log before after misaligned =>
      obtain ⟨entries, hlog, entry, hentry, hharmful⟩ := log
      refine ⟨entries, hlog, fun htruthful => iff_of_false ?_ ?_⟩
      · intro hnext
        exact misaligned (htruthful before) (hnext after)
      · intro hall
        exact hharmful (hall entry hentry)

/-! ## Transfers -/

/-- What an operation leaves behind for the timer around an exchange. -/
inductive Suspends {α : Type} (session next : IpSession) : Flow α → Prop
  | returned {result : Except IpError α} (leaves : Leaves session next) :
      Suspends session next (.returned result)
  | dropped (leaves : Leaves session next) :
      Suspends session next (.interrupted .dropped)
  | outer (log : Unharmed session.stream next.stream) :
      Suspends session next (.interrupted .outerTimer)

theorem Keeps.suspends {α : Type} {session middle next : IpSession}
    {flow : Flow α} (h : Keeps session middle) (h' : Suspends middle next flow) :
    Suspends session next flow := by
  cases h' with
  | returned leaves => exact .returned (h.leaves leaves)
  | dropped leaves => exact .dropped (h.leaves leaves)
  | outer log => exact .outer (h.log.trans log)

theorem keeps_packet {session : IpSession} {stream : Duplex AwaitPoint}
    {bytes : Bytes} (hreads : Duplex.Reads bytes session.stream stream)
    (hpacket : IsPacket bytes)
    (hlog : Duplex.Undisturbed session.stream stream) :
    Keeps session { session with stream } := by
  refine ⟨unharmed_of_undropped (undropped_of_undisturbed hlog), rfl, ?_⟩
  rintro ⟨hconsumed, hwritten⟩
  refine ⟨?_, ?_⟩
  · show WholePackets stream.consumed
    rw [hreads.consumed]
    exact hconsumed.concat hpacket
  · show WholePackets stream.written
    rw [hreads.written]
    exact hwritten

theorem torn_short {point : AwaitPoint} {moved : Nat} {bytes : Bytes}
    (h : Torn point moved bytes) :
    bytes.length < headerSize ∨ bytes.length < declaredLength bytes := by
  cases point with
  | header => exact .inl (h.1 ▸ h.2)
  | body => exact .inr h.2
  | discard => exact .inr h.2
  | write => exact h.elim
  | flush => exact h.elim

theorem torn_harmless_iff {point : AwaitPoint} {moved : Nat} {bytes : Bytes}
    (h : Torn point moved bytes) :
    Harmless (point, .interrupted .dropped moved) ↔ bytes = [] := by
  have hheader : headerSize ≤ bytes.length → bytes ≠ [] := by
    rintro hlength rfl
    exact absurd hlength (by decide)
  cases point with
  | header =>
      rw [← List.length_eq_zero_iff, h.1]
      rfl
  | body => exact iff_of_false id (hheader h.1)
  | discard => exact iff_of_false id (hheader h.1)
  | write => exact h.elim
  | flush => exact h.elim

theorem leaves_torn {session : IpSession} {stream : Duplex AwaitPoint}
    {bytes : Bytes} {point : AwaitPoint} {moved : Nat}
    (husable : session.usable = true)
    (hreads : Duplex.Reads bytes session.stream stream)
    (hlog : Duplex.Disturbed point .dropped moved session.stream stream)
    (htorn : Torn point moved bytes) :
    Leaves session { session with stream } := by
  by_cases hharmless : Harmless (point, .interrupted .dropped moved)
  · have hbytes := (torn_harmless_iff htorn).mp hharmless
    refine .kept ⟨unharmed_of_disturbed hlog hharmless, rfl, ?_⟩
    rintro ⟨hconsumed, hwritten⟩
    refine ⟨?_, ?_⟩
    · show WholePackets stream.consumed
      rw [hreads.consumed, hbytes, List.append_nil]
      exact hconsumed
    · show WholePackets stream.written
      rw [hreads.written]
      exact hwritten
  · have hbytes : bytes ≠ [] := mt (torn_harmless_iff htorn).mpr hharmless
    refine .torn (harmed_of_disturbed hlog hharmless) husable husable ?_
    rintro ⟨hconsumed, -⟩ ⟨hall, -⟩
    have hall' : WholePackets (session.stream.consumed ++ bytes) :=
      hreads.consumed ▸ hall
    exact not_wholePackets hbytes (torn_short htorn) (hconsumed.of_append hall')

theorem suspends_receive (session : IpSession) :
    Suspends session session.receive.1 session.receive.2 ∧
      ∀ packet, session.receive.2 = .returned (.ok packet) →
        Keeps session session.receive.1 := by
  by_cases husable : session.usable = true
  swap
  · rw [receive, if_pos husable]
    exact ⟨.returned (.kept (.refl session)), fun packet h => by cases h⟩
  have hreceives := receives husable
  generalize session.receive = received at hreceives ⊢
  obtain ⟨next, flow⟩ := received
  cases hreceives with
  | whole reads packet log =>
      have hkeeps := keeps_packet reads packet log
      exact ⟨.returned (.kept hkeeps), fun _ _ => hkeeps⟩
  | lost log =>
      exact ⟨.returned (.lost (unharmed_of_undropped log) rfl),
        fun packet h => by cases h⟩
  | @interrupted stream bytes point interruption moved reads log torn outside =>
      refine ⟨?_, fun packet h => by cases h⟩
      cases interruption with
      | innerTimer => exact absurd rfl outside
      | outerTimer =>
          exact .outer (unharmed_of_undropped
            (undropped_of_disturbed log (by decide)))
      | dropped => exact .dropped (leaves_torn husable reads log torn)

theorem written_harmless_iff {point : AwaitPoint} {moved : Nat}
    {packet : IpPacket} {bytes : Bytes}
    (hpart : point = .flush ∧ bytes = packet.encoding ∨
      point = .write ∧ bytes = packet.encoding.take moved ∧
        (moved < packet.encoding.length ∨ moved = 0)) :
    Harmless (point, .interrupted .dropped moved) ↔
      bytes = packet.encoding ∨ bytes = [] := by
  have hlength := packet.length_encoding
  have hheader : headerSize = 8 := rfl
  rcases hpart with ⟨rfl, rfl⟩ | ⟨rfl, rfl, hmoved⟩
  · exact iff_of_true trivial (.inl rfl)
  · show moved = 0 ↔ _
    constructor
    · rintro rfl
      exact .inr rfl
    · rintro (hall | hnone)
      · have hlengths := congrArg List.length hall
        rw [List.length_take] at hlengths
        omega
      · have hlengths := congrArg List.length hnone
        rw [List.length_take, List.length_nil] at hlengths
        omega

theorem written_short {point : AwaitPoint} {moved : Nat}
    {packet : IpPacket} {bytes : Bytes}
    (hbody : packet.body.length ≤ maximumIpBodyBytes)
    (hpart : PartlyWritten packet.encoding point moved bytes)
    (hbytes : bytes ≠ packet.encoding) :
    bytes.length < headerSize ∨ bytes.length < declaredLength bytes := by
  have hpacket := IpPacket.isPacket_encoding hbody
  rcases hpart with ⟨-, rfl⟩ | ⟨-, rfl, hmoved⟩
  · exact absurd rfl hbytes
  · have hlength := packet.length_encoding
    have hheader : headerSize = 8 := rfl
    rw [List.length_take_of_le (by omega)]
    by_cases hshort : moved < headerSize
    · exact .inl hshort
    · rw [declaredLength_take (Nat.le_of_not_lt hshort) (by omega), hpacket.2]
      exact .inr (by omega)

theorem leaves_written {session : IpSession} {stream : Duplex AwaitPoint}
    {bytes : Bytes} {point : AwaitPoint} {moved : Nat} {packet : IpPacket}
    (husable : session.usable = true)
    (hbody : packet.body.length ≤ maximumIpBodyBytes)
    (hwrites : Duplex.Writes bytes session.stream stream)
    (hlog : Duplex.Disturbed point .dropped moved session.stream stream)
    (hpart : PartlyWritten packet.encoding point moved bytes) :
    Leaves session { session with stream } := by
  by_cases hharmless : Harmless (point, .interrupted .dropped moved)
  · refine .kept ⟨unharmed_of_disturbed hlog hharmless, rfl, ?_⟩
    rintro ⟨hconsumed, hwritten⟩
    refine ⟨?_, ?_⟩
    · show WholePackets stream.consumed
      rw [hwrites.consumed]
      exact hconsumed
    · show WholePackets stream.written
      rw [hwrites.written]
      rcases (written_harmless_iff hpart).mp hharmless with rfl | rfl
      · exact hwritten.concat (IpPacket.isPacket_encoding hbody)
      · rw [List.append_nil]
        exact hwritten
  · have hbytes := not_or.mp (mt (written_harmless_iff hpart).mpr hharmless)
    refine .torn (harmed_of_disturbed hlog hharmless) husable husable ?_
    rintro ⟨-, hwritten⟩ ⟨-, hall⟩
    have hall' : WholePackets (session.stream.written ++ bytes) :=
      hwrites.written ▸ hall
    exact not_wholePackets hbytes.2 (written_short hbody hpart hbytes.1)
      (hwritten.of_append hall')

theorem keeps_sent {session : IpSession} {stream : Duplex AwaitPoint}
    {packet : IpPacket} (hbody : packet.body.length ≤ maximumIpBodyBytes)
    (hwrites : Duplex.Writes packet.encoding session.stream stream)
    (hlog : Duplex.Undisturbed session.stream stream) (sequence : UInt16) :
    Keeps session { session with stream, nextSequence := sequence } := by
  refine ⟨unharmed_of_undropped (undropped_of_undisturbed hlog), rfl, ?_⟩
  rintro ⟨hconsumed, hwritten⟩
  refine ⟨?_, ?_⟩
  · show WholePackets stream.consumed
    rw [hwrites.consumed]
    exact hconsumed
  · show WholePackets stream.written
    rw [hwrites.written]
    exact hwritten.concat (IpPacket.isPacket_encoding hbody)

theorem SendsPacket.suspends {session next : IpSession} {packet : IpPacket}
    {flow : Flow UInt16} (h : SendsPacket session packet next flow) :
    Suspends session next flow ∧
      ∀ sequence, flow = .returned (.ok sequence) → Keeps session next := by
  cases h with
  | refused =>
      exact ⟨.returned (.kept (.refl session)), fun sequence h => by cases h⟩
  | sent usable short writes log =>
      have hkeeps := keeps_sent short writes log (session.nextSequence + 1)
      exact ⟨.returned (.kept hkeeps), fun _ _ => hkeeps⟩
  | lost log =>
      exact ⟨.returned (.lost (unharmed_of_undropped log) rfl),
        fun sequence h => by cases h⟩
  | @interrupted stream point interruption moved bytes usable short writes log
      part outside =>
      refine ⟨?_, fun sequence h => by cases h⟩
      cases interruption with
      | innerTimer => exact absurd rfl outside
      | outerTimer =>
          exact .outer (unharmed_of_undropped
            (undropped_of_disturbed log (by decide)))
      | dropped => exact .dropped (leaves_written usable short writes log part)

/-! ## Exchanges -/

theorem suspends_exchangeLoop (sequence : UInt16) (messageId : UInt8)
    (bound unmatched : Nat) (session : IpSession) :
    Suspends session
      (exchangeLoop sequence messageId bound unmatched session).1
      (exchangeLoop sequence messageId bound unmatched session).2 := by
  induction bound generalizing unmatched session with
  | zero => exact .returned (.kept (.refl session))
  | succ bound ih =>
      obtain ⟨hsuspends, hkeeps⟩ := session.suspends_receive
      rw [exchangeLoop]
      generalize session.receive = received at hsuspends hkeeps ⊢
      obtain ⟨next, ⟨error | packet⟩ | interruption⟩ := received
      · cases hsuspends with
        | returned leaves => exact .returned leaves
      · have hnext := hkeeps packet rfl
        dsimp only at hnext ⊢
        have hretained := next.retainPublished_rest packet
        split_ifs
        · exact .returned (.kept hnext)
        · exact (hnext.of_eq (congrArg IpSession.stream hretained :)
            (congrArg IpSession.usable hretained :)).suspends (ih ..)
        · exact .returned (.kept (hnext.of_eq rfl rfl))
        · refine (hnext.of_eq ?_ ?_).suspends (ih ..)
          · rfl
          · rfl
        · exact .returned (.kept hnext)
      · cases hsuspends with
        | dropped leaves => exact .dropped leaves
        | outer log => exact .outer log

/-- The timer around an exchange makes the session unusable. -/
theorem leaves_exchangeUnchecked (session : IpSession) (messageId : UInt8)
    (body : Bytes) :
    Leaves session (session.exchangeUnchecked messageId body).1 := by
  have hexchange : Suspends session
      (session.exchangeUncheckedWithoutTotalTimeout messageId body).1
      (session.exchangeUncheckedWithoutTotalTimeout messageId body).2 := by
    obtain ⟨hsuspends, hkeeps⟩ :=
      (session.sendsPacket .request messageId body).suspends
    rw [exchangeUncheckedWithoutTotalTimeout]
    generalize session.send .request messageId body = request
      at hsuspends hkeeps ⊢
    obtain ⟨sent, ⟨error | sequence⟩ | interruption⟩ := request
    · cases hsuspends with
      | returned leaves => exact .returned leaves
    · exact (hkeeps sequence rfl).suspends (suspends_exchangeLoop ..)
    · cases hsuspends with
      | dropped leaves => exact .dropped leaves
      | outer log => exact .outer log
  rw [exchangeUnchecked]
  generalize session.exchangeUncheckedWithoutTotalTimeout messageId body =
    exchange at hexchange ⊢
  obtain ⟨next, flow⟩ := exchange
  cases hexchange with
  | returned leaves => exact leaves
  | dropped leaves => exact leaves
  | outer log => exact .lost log rfl


/-! ## Runs of calls -/

theorem Exchanges.leaves {session next : IpSession} {flow : Flow IpPacket}
    (h : Exchanges session next flow) : Leaves session next := by
  cases h with
  | refused => exact .kept (.refl session)
  | @exchanged messageId body isOpen =>
      have hleaves := leaves_exchangeUnchecked session messageId body
      cases hleaves with
      | kept keeps => exact .kept (keeps.of_eq rfl rfl)
      | lost log unusable => exact .lost log unusable
      | torn log before after misaligned =>
          exact .torn log before after misaligned

theorem returned_ne_interrupted {α : Type} {result : Except IpError α}
    {interruption : Interruption} :
    Flow.returned result ≠ Flow.interrupted interruption := by
  intro h
  contradiction

theorem awaited_excludes {α β : Type} {interruption : Interruption}
    {session : IpSession} {transfer : Duplex AwaitPoint × Outcome α}
    {next : IpSession → α → IpSession × Flow β}
    (h : transfer.2 ≠ .interrupted interruption)
    (hnext : ∀ value, (next { session with stream := transfer.1 } value).2 ≠
      .interrupted interruption) :
    (session.awaited transfer next).2 ≠ .interrupted interruption := by
  obtain ⟨stream, value | error | other⟩ := transfer
  · exact hnext value
  · exact returned_ne_interrupted
  · rintro heq
    injection heq with heq
    exact h (heq ▸ rfl)

theorem receive_excludes {interruption : Interruption} {session : IpSession}
    (h : session.stream.Excludes interruption) :
    session.receive.2 ≠ .interrupted interruption := by
  have hunbounded : session.receiveUnbounded.2 ≠ .interrupted interruption := by
    have hheader := h.readExact AwaitPoint.header headerSize
    refine awaited_excludes hheader.2 fun header => ?_
    dsimp only
    split_ifs
    · exact returned_ne_interrupted
    · exact awaited_excludes (hheader.1.discardLoop ..).2
        fun _ => returned_ne_interrupted
    · exact awaited_excludes (hheader.1.readExact ..).2
        fun _ => returned_ne_interrupted
  rw [receive]
  by_cases husable : session.usable = true
  swap
  · rw [if_pos husable]
    exact returned_ne_interrupted
  rw [if_neg (not_not.mpr husable)]
  generalize session.receiveUnbounded = received at hunbounded ⊢
  obtain ⟨next, ⟨error | packet⟩ | other⟩ := received
  · cases error <;> exact returned_ne_interrupted
  · exact returned_ne_interrupted
  · cases other <;> first | exact hunbounded | exact returned_ne_interrupted

theorem send_excludes {interruption : Interruption} {session : IpSession}
    (h : session.stream.Excludes interruption) (messageType : MessageType)
    (messageId : UInt8) (body : Bytes) :
    (session.send messageType messageId body).2 ≠
      .interrupted interruption := by
  have hpacket : ∀ encoded, (writePacket encoded session.stream).2 ≠
      .interrupted interruption := by
    intro encoded
    have hwrite := h.writeAll AwaitPoint.write encoded
    rw [writePacket]
    generalize session.stream.writeAll .write encoded = written at hwrite ⊢
    obtain ⟨stream, value | error | other⟩ := written
    · exact hwrite.1.flush .flush
    · exact hwrite.2
    · exact hwrite.2
  rw [send]
  dsimp only
  split_ifs
  · exact returned_ne_interrupted
  · cases IpPacket.encode _ with
    | error error => exact returned_ne_interrupted
    | ok encoded =>
        have hwritten := hpacket encoded
        dsimp only
        generalize writePacket encoded session.stream = written
          at hwritten ⊢
        obtain ⟨stream, value | error | other⟩ := written
        · exact returned_ne_interrupted
        · exact returned_ne_interrupted
        · cases other with
          | innerTimer => exact returned_ne_interrupted
          | outerTimer =>
              rintro heq
              injection heq with heq
              exact hwritten (heq ▸ rfl)
          | dropped =>
              rintro heq
              injection heq with heq
              exact hwritten (heq ▸ rfl)
  · exact returned_ne_interrupted

theorem excludes_withoutOuterTimer (session : IpSession)
    (awaits : List Await) :
    (session.under (awaits.map withoutOuterTimer)).stream.Excludes
      .outerTimer := by
  intro moved hmem
  obtain ⟨await, -, heq⟩ := List.mem_map.mp hmem
  unfold withoutOuterTimer at heq
  split at heq
  · cases heq
  · next hother => exact hother moved heq

theorem Suspends.leaves {α : Type} {session next : IpSession} {flow : Flow α}
    (h : Suspends session next flow)
    (hflow : flow ≠ .interrupted .outerTimer) : Leaves session next := by
  cases h with
  | returned leaves => exact leaves
  | dropped leaves => exact leaves
  | outer log => exact absurd rfl hflow

/-- What is to happen at the awaits does not count. -/
theorem Leaves.of_under {session next : IpSession} {awaits : List Await}
    (h : Leaves (session.under awaits) next) :
    Leaves session (next.under []) := by
  cases h with
  | kept keeps => exact .kept ⟨keeps.log, keeps.usable, keeps.kept⟩
  | lost log unusable => exact .lost log unusable
  | torn log before after misaligned =>
      exact .torn log before after misaligned

theorem leaves_perform (session : IpSession) (call : Call × List Await) :
    Leaves session (session.perform call).1 := by
  obtain ⟨call, awaits⟩ := call
  have hexcludes := session.excludes_withoutOuterTimer awaits
  cases call with
  | send messageType messageId body =>
      have hsends := (sendsPacket (session.under
        (awaits.map withoutOuterTimer)) messageType messageId body).suspends
      exact (hsends.1.leaves (send_excludes hexcludes messageType
        messageId body)).of_under
  | receive =>
      have hreceives := suspends_receive (session.under
        (awaits.map withoutOuterTimer))
      exact (hreceives.1.leaves (receive_excludes hexcludes)).of_under
  | openSession milliseconds =>
      exact (exchanges_openSession ..).leaves.of_under
  | request messageId body => exact (exchanges_request ..).leaves.of_under
  | keepAlive => exact (exchanges_request ..).leaves.of_under
  | tokenPassing body => exact (exchanges_request ..).leaves.of_under
  | closeSession => exact (exchanges_closeSession ..).leaves.of_under

theorem performs_truthful_iff (session : IpSession)
    (calls : List (Call × List Await)) :
    ∃ entries,
      Logged session.stream (session.performs calls).1.stream entries ∧
      (session.Truthful →
        ((∀ done, done <+: calls → (session.performs done).1.Truthful) ↔
          ∀ entry ∈ entries, Harmless entry)) := by
  induction calls generalizing session with
  | nil =>
      refine ⟨[], (List.append_nil _).symm,
        fun htruthful => iff_of_true ?_ (by simp)⟩
      intro done hdone
      rw [List.prefix_nil.mp hdone]
      exact htruthful
  | cons call calls ih =>
      obtain ⟨first, hfirst, hnext⟩ :=
        (session.leaves_perform call).truthful_iff
      obtain ⟨rest, hrest, hlater⟩ := ih (session.perform call).1
      refine ⟨first ++ rest, ?_, ?_⟩
      · show ((session.perform call).1.performs calls).1.stream.log = _
        rw [hrest, hfirst, List.append_assoc]
      intro htruthful
      rw [List.forall_mem_append]
      constructor
      · intro hall
        have hone : (session.perform call).1.Truthful :=
          hall [call] (List.prefix_append [call] calls)
        refine ⟨(hnext htruthful).mp hone, (hlater hone).mp ?_⟩
        intro done hdone
        exact hall (call :: done) (List.cons_prefix_cons.mpr ⟨rfl, hdone⟩)
      · rintro ⟨hfirstHarmless, hrestHarmless⟩ done hdone
        have hone := (hnext htruthful).mpr hfirstHarmless
        cases done with
        | nil => exact htruthful
        | cons other done =>
            obtain ⟨rfl, hmore⟩ := List.cons_prefix_cons.mp hdone
            exact (hlater hone).mpr hrestHarmless done hmore

/--
In a run of calls on a new session, each of which may be interrupted at any
await, the session stands between two packets in both directions whenever it
says that it is usable, exactly if no future was dropped inside a packet.
-/
theorem performs_aligned_iff (settings : IpSession) (input : Bytes)
    (calls : List (Call × List Await)) :
    let session : IpSession := { settings with stream := { input } }
    (∀ done, done <+: calls →
      (session.performs done).1.usable = true →
        (session.performs done).1.Aligned) ↔
      ∀ entry ∈ (session.performs calls).1.stream.log, Harmless entry := by
  intro session
  have htruthful : session.Truthful :=
    fun _ => ⟨wholePackets_nil, wholePackets_nil⟩
  obtain ⟨entries, hlog, hiff⟩ := session.performs_truthful_iff calls
  have hentries : (session.performs calls).1.stream.log = entries := hlog
  rw [hentries]
  exact hiff htruthful

/-- A receive that is dropped inside a body leaves the session usable. -/
theorem dropped_receive_misaligned :
    let session := new { input := [1, 1, 2, 0, 0, 1, 0, 10, 5, 5] }
    let now := (session.performs
      [(.receive, [.ready, .interrupted .dropped 1])]).1
    now.usable = true ∧ ¬ now.Aligned := by
  refine ⟨rfl, ?_⟩
  rintro ⟨hconsumed, -⟩
  have hbytes : WholePackets [1, 1, 2, 0, 0, 1, 0, 10, 5] := hconsumed
  exact not_wholePackets (by decide) (by decide) hbytes

end IpSession

end HartLink.Ip

import HartLink.Foundation.Trimming
import HartLink.Ip.Session

/-!
# The queue of published packets

A session keeps published packets under a limit of packets and one of body
bytes.  The three loops that evict packets are one trimming of the queue; the
byte total and the counter of dropped packets follow it.
-/

namespace HartLink.Ip

open HartLink.Foundation

def bodyBytes (packets : List IpPacket) : Nat :=
  (packets.map fun packet => packet.body.length).sum

@[simp] theorem bodyBytes_nil : bodyBytes [] = 0 := rfl

@[simp] theorem bodyBytes_cons (packet : IpPacket)
    (packets : List IpPacket) :
    bodyBytes (packet :: packets) =
      packet.body.length + bodyBytes packets := by
  simp [bodyBytes]

@[simp] theorem bodyBytes_append (packets others : List IpPacket) :
    bodyBytes (packets ++ others) =
      bodyBytes packets + bodyBytes others := by
  simp [bodyBytes]

def FitsPublished (maximumPublished maximumBytes : Nat)
    (packets : List IpPacket) : Prop :=
  packets.length ≤ maximumPublished ∧ bodyBytes packets ≤ maximumBytes

instance (maximumPublished maximumBytes : Nat) :
    DecidablePred (FitsPublished maximumPublished maximumBytes) :=
  fun _ => inferInstanceAs (Decidable (_ ∧ _))

namespace IpSession

/-! ## The loops -/

/-- What an eviction leaves: a part of the queue, its bytes and the counter. -/
def evicted (queue kept : List IpPacket) (dropped : UInt64) :
    List IpPacket × Nat × UInt64 :=
  (kept, bodyBytes kept, saturatingAdd dropped (queue.length - kept.length))

/-- One more packet is evicted before the others. -/
theorem evicted_cons {queue kept : List IpPacket} (packet : IpPacket)
    (dropped : UInt64) (h : kept <:+ queue) :
    evicted queue kept (saturatingAdd dropped 1) =
      evicted (packet :: queue) kept dropped := by
  have hlength := h.length_le
  unfold evicted
  rw [saturatingAdd_saturatingAdd, List.length_cons,
    show 1 + (queue.length - kept.length) =
      queue.length + 1 - kept.length by omega]

theorem evicted_self (queue : List IpPacket) (dropped : UInt64) :
    evicted queue queue dropped = (queue, bodyBytes queue, dropped) := by
  unfold evicted
  rw [Nat.sub_self, saturatingAdd_zero]

theorem makeRoom_eq {maximumPublished maximumBytes : Nat} {packet : IpPacket}
    (hfits : FitsPublished maximumPublished maximumBytes [packet])
    (queue : List IpPacket) (dropped : UInt64) :
    makeRoom maximumPublished maximumBytes packet.body.length queue
        (bodyBytes queue) dropped =
      evicted queue
        (trimFront (fun rest => FitsPublished maximumPublished maximumBytes
          (rest ++ [packet])) queue) dropped := by
  -- The loop goes on exactly as long as the new packet does not fit.
  have hroom (first : IpPacket) (queue : List IpPacket) :
      ((first :: queue).length ≥ maximumPublished ∨
        bodyBytes (first :: queue) + packet.body.length > maximumBytes) ↔
        ¬ FitsPublished maximumPublished maximumBytes
          (first :: queue ++ [packet]) := by
    simp only [FitsPublished, List.length_append, List.length_cons,
      bodyBytes_append, bodyBytes_cons, List.length_nil, bodyBytes_nil]
    omega
  refine trimFront_loop (fun queue => makeRoom maximumPublished maximumBytes
    packet.body.length queue (bodyBytes queue)) evicted (fun _ _ => True)
    hfits ?_ ?_ ?_ queue dropped trivial
  · intro dropped _
    exact (evicted_self [] dropped).symm
  · intro first queue dropped _ hfirst
    rw [makeRoom, if_neg (mt (hroom first queue).mp (not_not.mpr hfirst)),
      evicted_self]
  · intro first queue dropped _ hfirst
    refine ⟨_, trivial, ?_, fun kept => evicted_cons first dropped⟩
    rw [makeRoom, if_pos ((hroom first queue).mpr hfirst), bodyBytes_cons,
      Nat.add_sub_cancel_left]

theorem shedExcess_eq (maximumPublished maximumBytes : Nat)
    (queue : List IpPacket) (dropped : UInt64) :
    shedExcess maximumPublished maximumBytes queue (bodyBytes queue)
        dropped =
      evicted queue
        (trimFront (FitsPublished maximumPublished maximumBytes) queue)
        dropped := by
  have hexcess (queue : List IpPacket) :
      (queue.length > maximumPublished ∨ bodyBytes queue > maximumBytes) ↔
        ¬ FitsPublished maximumPublished maximumBytes queue := by
    unfold FitsPublished
    omega
  refine trimFront_loop (fun queue => shedExcess maximumPublished maximumBytes
    queue (bodyBytes queue)) evicted (fun _ _ => True)
    ⟨Nat.zero_le _, Nat.zero_le _⟩ ?_ ?_ ?_ queue dropped trivial
  · intro dropped _
    rw [shedExcess, evicted_self, bodyBytes_nil, ite_self]
  · intro first queue dropped _ hfirst
    rw [shedExcess, if_neg (mt (hexcess _).mp (not_not.mpr hfirst)),
      evicted_self]
  · intro first queue dropped _ hfirst
    refine ⟨_, trivial, ?_, fun kept => evicted_cons first dropped⟩
    rw [shedExcess, if_pos ((hexcess _).mpr hfirst), bodyBytes_cons,
      Nat.add_sub_cancel_left]

/-! ## The operations -/

/-- The limits allow a packet to be kept at all. -/
def Retains (session : IpSession) (packet : IpPacket) : Prop :=
  session.maximumPublished ≠ 0 ∧ session.maximumPublishedBytes ≠ 0 ∧
    packet.body.length ≤ session.maximumPublishedBytes

theorem retainPublished_of_not_retains {session : IpSession}
    {packet : IpPacket} (h : ¬ session.Retains packet) :
    session.retainPublished packet = { session with
      publishedDropped := saturatingAdd session.publishedDropped 1 } := by
  unfold retainPublished
  dsimp only
  refine if_pos ?_
  unfold Retains at h
  omega

theorem Retains.fits {session : IpSession} {packet : IpPacket}
    (h : session.Retains packet) :
    FitsPublished session.maximumPublished session.maximumPublishedBytes
      [packet] := by
  obtain ⟨hpackets, -, hbytes⟩ := h
  refine ⟨?_, ?_⟩
  · rw [List.length_singleton]
    omega
  · rw [bodyBytes_cons, bodyBytes_nil]
    omega

/-- A queue whose byte total is right stays so, and is trimmed. -/
theorem retainPublished_of_retains {session : IpSession} {packet : IpPacket}
    (h : session.Retains packet)
    (hbytes : session.publishedBytes = bodyBytes session.published) :
    ∃ kept, IsLongestSuffix (FitsPublished session.maximumPublished
        session.maximumPublishedBytes) (session.published ++ [packet]) kept ∧
      session.retainPublished packet = { session with
        published := kept
        publishedBytes := bodyBytes kept
        publishedDropped := saturatingAdd session.publishedDropped
          ((session.published ++ [packet]).length - kept.length) } := by
  refine ⟨_, (trimFront_spec h.fits session.published).concat, ?_⟩
  unfold retainPublished
  dsimp only
  rw [if_neg (by unfold Retains at h; omega), hbytes, makeRoom_eq h.fits]
  unfold evicted
  simp only [List.length_append, List.length_singleton,
    Nat.add_sub_add_right, bodyBytes_append, bodyBytes_cons, bodyBytes_nil,
    Nat.add_zero]

theorem enforcePublishedLimits_eq {session : IpSession}
    (hbytes : session.publishedBytes = bodyBytes session.published) :
    ∃ kept, IsLongestSuffix (FitsPublished session.maximumPublished
        session.maximumPublishedBytes) session.published kept ∧
      session.enforcePublishedLimits = { session with
        published := kept
        publishedBytes := bodyBytes kept
        publishedDropped := saturatingAdd session.publishedDropped
          (session.published.length - kept.length) } := by
  refine ⟨_, trimFront_spec ⟨Nat.zero_le _, Nat.zero_le _⟩
    session.published, ?_⟩
  unfold enforcePublishedLimits
  rw [hbytes, shedExcess_eq]
  rfl

end IpSession

/-! ## Runs -/

inductive RetentionAction where
  | retain (packet : IpPacket)
  | take
  | limitPackets (maximumPublished : Nat)
  | limitBytes (maximumPublishedBytes : Nat)
  deriving DecidableEq, Repr

/-- A session with the published packets that it received and gave out. -/
structure Retention where
  session : IpSession
  received : List IpPacket := []
  taken : List IpPacket := []
  deriving DecidableEq, Repr

namespace Retention

def step (history : Retention) : RetentionAction → Retention
  | .retain packet =>
      { history with
        session := history.session.retainPublished packet
        received := history.received ++ [packet] }
  | .take =>
      { history with
        session := history.session.takePublished.2
        taken := history.taken ++ history.session.takePublished.1.toList }
  | .limitPackets maximumPublished =>
      { history with
        session := history.session.withMaximumPublished maximumPublished }
  | .limitBytes maximumPublishedBytes =>
      { history with
        session := history.session.withMaximumPublishedBytes
          maximumPublishedBytes }

def steps (history : Retention) (actions : List RetentionAction) :
    Retention :=
  actions.foldl step history

def run (stream : Duplex AwaitPoint) (actions : List RetentionAction) :
    Retention :=
  steps { session := .new stream } actions

/-- Every packet that was received is taken, queued or counted as dropped. -/
structure Accounted (history : Retention) : Prop where
  bytes : history.session.publishedBytes =
    bodyBytes history.session.published
  fits : FitsPublished history.session.maximumPublished
    history.session.maximumPublishedBytes history.session.published
  order : (history.taken ++ history.session.published).Sublist
    history.received
  dropped : history.session.publishedDropped.toNat =
    min (history.received.length -
      (history.taken.length + history.session.published.length))
      (2 ^ 64 - 1)

variable {history : Retention}

theorem Accounted.length_le (h : history.Accounted) :
    history.taken.length + history.session.published.length ≤
      history.received.length := by
  rw [← List.length_append]
  exact h.order.length_le

theorem accounted_of_suffix {session : IpSession}
    {received taken queue kept : List IpPacket} {dropped : UInt64}
    (horder : (taken ++ queue).Sublist received)
    (hdropped : dropped.toNat =
      min (received.length - (taken.length + queue.length)) (2 ^ 64 - 1))
    (hkept : IsLongestSuffix (FitsPublished session.maximumPublished
      session.maximumPublishedBytes) queue kept) :
    Accounted ⟨{ session with
      published := kept
      publishedBytes := bodyBytes kept
      publishedDropped := saturatingAdd dropped
        (queue.length - kept.length) }, received, taken⟩ := by
  refine ⟨rfl, hkept.fits, ?_, ?_⟩
  · exact (List.Sublist.append_left hkept.isSuffix.sublist taken).trans horder
  · have hshorter := hkept.isSuffix.length_le
    have hlength := horder.length_le
    rw [List.length_append] at hlength
    rw [saturatingAdd_toNat, hdropped]
    dsimp only
    omega

theorem Accounted.retain (h : history.Accounted) (packet : IpPacket) :
    (history.step (.retain packet)).Accounted := by
  have hlength := h.length_le
  rw [step]
  by_cases hretains : history.session.Retains packet
  · obtain ⟨kept, hkept, hnext⟩ :=
      IpSession.retainPublished_of_retains hretains h.bytes
    rw [hnext]
    refine accounted_of_suffix ?_ ?_ hkept
    · rw [← List.append_assoc]
      exact h.order.append_right [packet]
    · rw [h.dropped, List.length_append, List.length_append]
      congr 1
      simp only [List.length_singleton]
      omega
  · rw [IpSession.retainPublished_of_not_retains hretains]
    refine ⟨h.bytes, h.fits, h.order.trans (List.sublist_append_left _ _), ?_⟩
    rw [saturatingAdd_toNat, h.dropped, List.length_append,
      List.length_singleton]
    dsimp only
    omega

theorem Accounted.take (h : history.Accounted) :
    (history.step .take).Accounted := by
  obtain ⟨hbytes, hfits, horder, hdropped⟩ := h
  rw [step]
  unfold IpSession.takePublished
  cases hqueue : history.session.published with
  | nil =>
      rw [Option.toList_none, List.append_nil]
      exact ⟨hbytes, hfits, horder, hdropped⟩
  | cons packet queue =>
      rw [hqueue] at hbytes hfits horder hdropped
      rw [bodyBytes_cons] at hbytes
      unfold FitsPublished at hfits
      rw [List.length_cons, bodyBytes_cons] at hfits
      refine ⟨?_, ⟨?_, ?_⟩, ?_, ?_⟩
      · dsimp only
        omega
      · dsimp only
        omega
      · dsimp only
        omega
      · rw [Option.toList_some, List.append_assoc]
        exact horder
      · rw [hdropped, Option.toList_some, List.length_append,
          List.length_singleton, List.length_cons]
        congr 2
        dsimp only
        omega

/-- Other limits change nothing but the queue that they trim. -/
theorem Accounted.limited (h : history.Accounted)
    (maximumPublished maximumPublishedBytes : Nat) :
    Accounted { history with
      session := { history.session with
        maximumPublished, maximumPublishedBytes }.enforcePublishedLimits } := by
  obtain ⟨kept, hkept, hnext⟩ := @IpSession.enforcePublishedLimits_eq
    { history.session with
      maximumPublished, maximumPublishedBytes } h.bytes
  rw [hnext]
  exact accounted_of_suffix h.order h.dropped hkept

theorem Accounted.step (h : history.Accounted) (action : RetentionAction) :
    (history.step action).Accounted := by
  cases action with
  | retain packet => exact h.retain packet
  | take => exact h.take
  | limitPackets maximumPublished => exact h.limited _ _
  | limitBytes maximumPublishedBytes => exact h.limited _ _

theorem Accounted.steps (h : history.Accounted)
    (actions : List RetentionAction) : (history.steps actions).Accounted := by
  induction actions generalizing history with
  | nil => exact h
  | cons action actions ih => exact ih (h.step action)

theorem accounted_new (stream : Duplex AwaitPoint) :
    Accounted { session := .new stream } :=
  ⟨rfl, ⟨Nat.zero_le _, Nat.zero_le _⟩, List.Sublist.refl [], rfl⟩

/--
In every run, the queue holds whole packets in the order of their arrival within
both limits, a retained packet leaves the longest suffix that fits, and the
counter tells the packets that are missing, up to its largest value.
-/
theorem published_retention (stream : Duplex AwaitPoint)
    (actions : List RetentionAction) :
    let history := run stream actions
    let session := history.session
    session.publishedBytes = bodyBytes session.published ∧
    session.published.length ≤ session.maximumPublished ∧
    session.publishedBytes ≤ session.maximumPublishedBytes ∧
    (history.taken ++ session.published).Sublist history.received ∧
    (∀ packet, session.Retains packet →
      IsLongestSuffix (FitsPublished session.maximumPublished
        session.maximumPublishedBytes) (session.published ++ [packet])
        (session.retainPublished packet).published) ∧
    (∀ packet, ¬ session.Retains packet →
      (session.retainPublished packet).published = session.published) ∧
    history.taken.length + session.published.length ≤
      history.received.length ∧
    session.publishedDropped.toNat = min (history.received.length -
      (history.taken.length + session.published.length)) (2 ^ 64 - 1) := by
  intro history session
  have h : history.Accounted := (accounted_new stream).steps actions
  refine ⟨h.bytes, h.fits.1, h.bytes.trans_le h.fits.2, h.order, ?_, ?_,
    h.length_le, h.dropped⟩
  · intro packet hretains
    obtain ⟨kept, hkept, hnext⟩ :=
      IpSession.retainPublished_of_retains hretains h.bytes
    rw [hnext]
    exact hkept
  · intro packet hretains
    rw [IpSession.retainPublished_of_not_retains hretains]

theorem steps_replicate_retain {packet : IpPacket}
    (h : history.session.maximumPublished = 0) (count : Nat) :
    history.steps (List.replicate count (.retain packet)) =
      ⟨{ history.session with
          publishedDropped :=
            saturatingAdd history.session.publishedDropped count },
        history.received ++ List.replicate count packet, history.taken⟩ := by
  induction count with
  | zero => simp [steps]
  | succ count ih =>
      rw [List.replicate_succ', steps, List.foldl_concat, ← steps, ih, step,
        IpSession.retainPublished_of_not_retains]
      · simp only [saturatingAdd_saturatingAdd, List.append_assoc,
          List.replicate_succ']
      · exact fun hretains => hretains.1 h

/-- A counter of 64 bits cannot tell `2 ^ 64` dropped packets. -/
theorem published_dropped_saturates :
    ¬ ∀ (stream : Duplex AwaitPoint) (actions : List RetentionAction),
      let history := run stream actions
      history.received.length = history.taken.length +
        history.session.published.length +
        history.session.publishedDropped.toNat := by
  intro h
  have hrun := h ⟨[], [], [], [], []⟩ (.limitPackets 0 ::
    List.replicate (2 ^ 64) (.retain ⟨1, .publish, 0, 0, 0, []⟩))
  rw [run, steps, List.foldl_cons, ← steps,
    steps_replicate_retain (by rfl)] at hrun
  dsimp only at hrun
  rw [saturatingAdd_toNat, List.length_append, List.length_replicate] at hrun
  have hreceived : (step { session := .new ⟨[], [], [], [], []⟩ }
      (.limitPackets 0)).received.length = 0 := rfl
  have htaken : (step { session := .new ⟨[], [], [], [], []⟩ }
      (.limitPackets 0)).taken.length = 0 := rfl
  have hqueued : (step { session := .new ⟨[], [], [], [], []⟩ }
      (.limitPackets 0)).session.published.length = 0 := rfl
  omega

end Retention

end HartLink.Ip

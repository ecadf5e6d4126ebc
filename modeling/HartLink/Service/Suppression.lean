import HartLink.Service.BurstHub

/-!
# Suppression and delivery of burst messages

Along every run the hub decides as the reference does.  A message that is not
suppressed is offered once to each subscription of its key; what a subscription
has accepted keeps the order of publication.
-/

namespace HartLink.Service

open HartLink.Foundation
open HartLink.Operation

def Offer.isClosed (offer : Offer) : Bool :=
  offer.outcome = .error .closed

def Offer.isFull (offer : Offer) : Bool :=
  offer.outcome = .error .full

namespace BurstState

/-! ## The loop over the subscriptions -/

section Loop

variable (key : BurstKey) (message : BurstMessage)

def offerOf (entry : Nat × SubscriptionEntry) : Offer :=
  ⟨entry.1, (entry.2.sender.trySend message).map fun _ => ()⟩

def offersOf (entries : List (Nat × SubscriptionEntry)) : List Offer :=
  (entries.filter fun entry => entry.2.key = key).map (offerOf message)

theorem foldl_offerTo (entries : List (Nat × SubscriptionEntry))
    (delivery : Delivery) :
    entries.foldl (offerTo key message) delivery =
      { offers := delivery.offers ++ offersOf key message entries
        closed := delivery.closed ++
          ((offersOf key message entries).filter Offer.isClosed).map Offer.id
        dropped := saturatingAdd delivery.dropped
          ((offersOf key message entries).countP Offer.isFull) } := by
  induction entries generalizing delivery with
  | nil => simp [offersOf]
  | cons entry entries ih =>
      rw [List.foldl_cons, ih]
      by_cases hkey : entry.2.key = key
      · have hoffers : offersOf key message (entry :: entries) =
            offerOf message entry :: offersOf key message entries := by
          simp [offersOf, hkey]
        rw [hoffers]
        simp only [offerTo, hkey, ne_eq, not_true_eq_false, if_false,
          offerOf]
        cases htry : entry.2.sender.trySend message with
        | ok channel => simp [Except.map, Offer.isClosed, Offer.isFull]
        | error error =>
            cases error with
            | full =>
                simp [Except.map, Offer.isClosed, Offer.isFull,
                  saturatingAdd_saturatingAdd, Nat.add_comm]
            | closed => simp [Except.map, Offer.isClosed, Offer.isFull]
      · have hskip : offerTo key message delivery entry = delivery := by
          simp [offerTo, hkey]
        simp [hskip, offersOf, hkey]

theorem offerAll_eq (state : BurstState) :
    state.offerAll key message =
      { offers := offersOf key message state.subscriptions.entries
        closed := ((offersOf key message state.subscriptions.entries).filter
          Offer.isClosed).map Offer.id
        dropped := saturatingAdd 0
          ((offersOf key message state.subscriptions.entries).countP
            Offer.isFull) } := by
  simp [offerAll, foldl_offerTo]

theorem ids_offersOf (entries : List (Nat × SubscriptionEntry)) :
    (offersOf key message entries).map Offer.id =
      (entries.filter fun entry => entry.2.key = key).map Prod.fst := by
  simp [offersOf, offerOf, Function.comp_def]

theorem mem_offersOf {entries : List (Nat × SubscriptionEntry)}
    {offer : Offer} :
    offer ∈ offersOf key message entries ↔
      ∃ id entry, (id, entry) ∈ entries ∧ entry.key = key ∧
        offer = ⟨id, (entry.sender.trySend message).map fun _ => ()⟩ := by
  simp only [offersOf, offerOf, List.mem_map, List.mem_filter,
    decide_eq_true_eq, Prod.exists]
  constructor
  · rintro ⟨id, entry, ⟨hmem, hkey⟩, rfl⟩
    exact ⟨id, entry, hmem, hkey, rfl⟩
  · rintro ⟨id, entry, hmem, hkey, rfl⟩
    exact ⟨id, entry, ⟨hmem, hkey⟩, rfl⟩

theorem mem_closed_iff (state : BurstState) (id : Nat) :
    id ∈ (state.offerAll key message).closed ↔
      ∃ entry, state.subscriptions.lookup id = some entry ∧
        entry.key = key ∧ entry.sender.trySend message = .error .closed := by
  simp only [offerAll_eq, List.mem_map, List.mem_filter, mem_offersOf,
    ← OrderedMap.lookup_eq_some_iff]
  constructor
  · rintro ⟨_, ⟨⟨id, entry, hentry, hkey, rfl⟩, hclosed⟩, rfl⟩
    refine ⟨entry, hentry, hkey, ?_⟩
    cases htry : entry.sender.trySend message with
    | ok channel => simp [Offer.isClosed, htry, Except.map] at hclosed
    | error error =>
        simpa [Offer.isClosed, htry, Except.map] using hclosed
  · rintro ⟨entry, hentry, hkey, hclosed⟩
    refine ⟨_, ⟨⟨id, entry, hentry, hkey, rfl⟩, ?_⟩, rfl⟩
    simp [Offer.isClosed, hclosed, Except.map]

/-! ## What a delivery does to the subscriptions -/

def afterOffer (entry : SubscriptionEntry) : Option SubscriptionEntry :=
  if entry.key ≠ key then some entry
  else
    match entry.sender.trySend message with
    | .ok sender => some { entry with sender }
    | .error .full => some entry
    | .error .closed => none

theorem lookup_removeSubscription (state : BurstState) (id other : Nat) :
    (state.removeSubscription id).subscriptions.lookup other =
      if other = id then none else state.subscriptions.lookup other := by
  unfold removeSubscription
  cases hentry : state.subscriptions.lookup id with
  | none =>
      split_ifs with hother
      · rw [hother]
        exact hentry
      · rfl
  | some entry => exact state.subscriptions.lookup_erase id other

theorem lookup_foldl_remove (state : BurstState) (ids : List Nat)
    (other : Nat) :
    (ids.foldl removeSubscription state).subscriptions.lookup other =
      if other ∈ ids then none else state.subscriptions.lookup other := by
  induction ids generalizing state with
  | nil => simp
  | cons id ids ih =>
      rw [List.foldl_cons, ih, lookup_removeSubscription]
      by_cases hmem : other ∈ ids
      · simp [hmem]
      · simp [hmem]

theorem lookup_deliver (state : BurstState) (id : Nat) :
    (state.deliver key message).2.subscriptions.lookup id =
      (state.subscriptions.lookup id).bind (afterOffer key message) := by
  have hlookup : (state.deliver key message).2.subscriptions.lookup id =
      if id ∈ (state.offerAll key message).closed then none
      else (state.sendAll key message).subscriptions.lookup id :=
    lookup_foldl_remove _ _ _
  rw [hlookup, sendAll, OrderedMap.lookup_mapValues]
  simp only [mem_closed_iff]
  cases hentry : state.subscriptions.lookup id with
  | none => simp
  | some entry =>
      simp only [Option.some.injEq, exists_eq_left', Option.map_some,
        Option.bind_some, afterOffer]
      by_cases hkey : entry.key = key
      · simp only [hkey, true_and, ne_eq, not_true_eq_false, if_false,
          Channel.offered]
        cases htry : entry.sender.trySend message with
        | ok channel => simp [Except.toOption]
        | error error =>
            cases error with
            | full => simp [Except.toOption, ← hkey]
            | closed => simp
      · simp [hkey]

end Loop

/-! ## Counters of a delivery -/

theorem snapshot_removeSubscription (state : BurstState) (id : Nat) :
    ∃ slots, (state.removeSubscription id).snapshot =
      { state.snapshot with reservedDeliverySlots := slots } := by
  unfold removeSubscription
  split
  · exact ⟨_, rfl⟩
  · exact ⟨_, rfl⟩

theorem snapshot_foldl_remove (state : BurstState) (ids : List Nat) :
    ∃ slots, (ids.foldl removeSubscription state).snapshot =
      { state.snapshot with reservedDeliverySlots := slots } := by
  induction ids generalizing state with
  | nil => exact ⟨_, rfl⟩
  | cons id ids ih =>
      obtain ⟨first, hfirst⟩ := state.snapshot_removeSubscription id
      obtain ⟨slots, hslots⟩ := ih (state.removeSubscription id)
      refine ⟨slots, ?_⟩
      rw [List.foldl_cons, hslots, hfirst]

theorem snapshot_track (state : BurstState) (key : BurstKey)
    (fingerprint : Bytes) (now : Nat) :
    ∃ evictions tracked, (state.track key fingerprint now).snapshot =
      { state.snapshot with
        fingerprintEvictions := evictions, trackedKeys := tracked } := by
  unfold track makeRoom
  split_ifs
  · exact ⟨_, _, rfl⟩
  · cases state.fingerprintOrder with
    | nil => exact ⟨_, _, rfl⟩
    | cons oldest rest => exact ⟨_, _, rfl⟩
  · exact ⟨_, _, rfl⟩

theorem snapshot_deliver (state : BurstState) (key : BurstKey)
    (message : BurstMessage) :
    ∃ count slots, (state.deliver key message).2.snapshot =
      { state.snapshot with
        backpressureDrops := saturatingAdd state.snapshot.backpressureDrops
          (state.offerAll key message).dropped.toNat
        subscriptions := count, reservedDeliverySlots := slots } := by
  obtain ⟨slots, hslots⟩ := snapshot_foldl_remove
    { state.sendAll key message with
      snapshot := { state.snapshot with
        backpressureDrops := saturatingAdd state.snapshot.backpressureDrops
          (state.offerAll key message).dropped.toNat } }
    (state.offerAll key message).closed
  refine ⟨(state.deliver key message).2.subscriptions.length, slots, ?_⟩
  simp only [deliver, countSubscriptions, sendAll] at hslots ⊢
  rw [hslots]

theorem snapshot_afterDelivery (state : BurstState) (reply : DeviceReply)
    (now receivedAt : Nat) :
    (state.afterDelivery reply now receivedAt).snapshot.received =
        saturatingAdd state.snapshot.received 1 ∧
      (state.afterDelivery reply now receivedAt).snapshot.duplicates =
        state.snapshot.duplicates ∧
      (state.afterDelivery reply now receivedAt).snapshot.backpressureDrops =
        saturatingAdd state.snapshot.backpressureDrops
          ((offersOf (BurstKey.ofReply reply) ⟨receivedAt, reply⟩
            state.subscriptions.entries).countP Offer.isFull) := by
  have hsame := sameSubscriptions_track state.countReceived
    (BurstKey.ofReply reply) (Fingerprint.bytesOf reply) now
  obtain ⟨evictions, tracked, htrack⟩ := snapshot_track state.countReceived
    (BurstKey.ofReply reply) (Fingerprint.bytesOf reply) now
  obtain ⟨count, slots, hdeliver⟩ := snapshot_deliver
    (state.countReceived.track (BurstKey.ofReply reply)
      (Fingerprint.bytesOf reply) now) (BurstKey.ofReply reply)
    ⟨receivedAt, reply⟩
  unfold afterDelivery
  rw [hdeliver, htrack, offerAll_eq, hsame.subscriptions]
  refine ⟨rfl, rfl, ?_⟩
  apply UInt64.toNat_inj.mp
  have hzero : (0 : UInt64).toNat = 0 := rfl
  simp only [saturatingAdd_toNat, hzero, countReceived]
  omega

/-! ## What subscriptions have accepted -/

section Accepted

variable {published : List BurstMessage} {state next : BurstState}

def ofKey (published : List BurstMessage) (key : BurstKey) :
    List BurstMessage :=
  published.filter fun message => BurstKey.ofReply message.reply = key

/-- Every subscription has accepted some messages of its key, in order. -/
def KeepsOrder (published : List BurstMessage) (state : BurstState) : Prop :=
  ∀ id entry, state.subscriptions.lookup id = some entry →
    entry.sender.accepted.Sublist (ofKey published entry.key)

theorem KeepsOrder.of_lookup (h : KeepsOrder published state)
    (hlookup : ∀ id entry, next.subscriptions.lookup id = some entry →
      ∃ earlier, state.subscriptions.lookup id = some earlier ∧
        entry.key = earlier.key ∧
        entry.sender.accepted = earlier.sender.accepted) :
    KeepsOrder published next := by
  intro id entry hentry
  obtain ⟨earlier, hearlier, hkey, haccepted⟩ := hlookup id entry hentry
  rw [hkey, haccepted]
  exact h id earlier hearlier

theorem KeepsOrder.same (h : KeepsOrder published state)
    (hsame : next.subscriptions = state.subscriptions) :
    KeepsOrder published next := by
  intro id entry hentry
  rw [hsame] at hentry
  exact h id entry hentry

theorem KeepsOrder.onChannel (h : KeepsOrder published state) (id : Nat)
    {act : Channel BurstMessage → Channel BurstMessage}
    (hact : ∀ channel, (act channel).accepted = channel.accepted) :
    KeepsOrder published (state.onChannel id act) := by
  apply h.of_lookup
  intro other entry hentry
  simp only [BurstState.onChannel, OrderedMap.modify,
    OrderedMap.lookup_mapValues] at hentry
  obtain ⟨earlier, hearlier, rfl⟩ := Option.map_eq_some_iff.mp hentry
  refine ⟨earlier, hearlier, ?_⟩
  split_ifs
  · exact ⟨rfl, hact earlier.sender⟩
  · exact ⟨rfl, rfl⟩

theorem KeepsOrder.removeSubscription (h : KeepsOrder published state)
    (id : Nat) : KeepsOrder published (state.removeSubscription id) := by
  apply h.of_lookup
  intro other entry hentry
  rw [lookup_removeSubscription] at hentry
  split_ifs at hentry
  exact ⟨entry, hentry, rfl, rfl⟩

theorem KeepsOrder.trySubscribe (h : KeepsOrder published state)
    (haccounts : state.Accounts) (key : BurstKey) (capacity : Nat) :
    KeepsOrder published (state.trySubscribe key capacity).2 := by
  rcases state.trySubscribe_cases key capacity with
    ⟨error, hsame⟩ | ⟨-, -, -, -, hadded⟩
  · rwa [hsame]
  · rw [hadded]
    intro id entry hentry
    dsimp only at hentry
    rw [OrderedMap.lookup_insert_of_last _ _ fun other hother =>
      Nat.lt_succ_of_le (haccounts.known other hother)] at hentry
    split_ifs at hentry
    · -- A new subscription has accepted nothing yet.
      injection hentry with hentry
      subst hentry
      exact List.nil_sublist _
    · exact h id entry hentry

theorem KeepsOrder.deliver (h : KeepsOrder published state)
    (message : BurstMessage) :
    KeepsOrder (published ++ [message])
      (state.deliver (BurstKey.ofReply message.reply) message).2 := by
  intro id entry hentry
  rw [lookup_deliver] at hentry
  obtain ⟨earlier, hearlier, hafter⟩ := Option.bind_eq_some_iff.mp hentry
  have hsublist := h id earlier hearlier
  unfold afterOffer at hafter
  by_cases hkey : earlier.key = BurstKey.ofReply message.reply
  · rw [if_neg (not_not.mpr hkey)] at hafter
    have hadded : ofKey (published ++ [message]) earlier.key =
        ofKey published earlier.key ++ [message] := by
      simp [ofKey, hkey]
    cases htry : earlier.sender.trySend message with
    | ok sender =>
        rw [htry] at hafter
        injection hafter with hafter
        subst hafter
        rw [hadded, Channel.accepted_of_trySend htry]
        exact hsublist.append (List.Sublist.refl _)
    | error error =>
        rw [htry] at hafter
        cases error with
        | full =>
            injection hafter with hafter
            subst hafter
            rw [hadded]
            exact hsublist.trans (List.sublist_append_left _ _)
        | closed => contradiction
  · rw [if_pos hkey] at hafter
    injection hafter with hafter
    subst hafter
    have hsame : ofKey (published ++ [message]) earlier.key =
        ofKey published earlier.key := by
      simp [ofKey, Ne.symm hkey]
    rwa [hsame]

end Accepted

end BurstState

namespace BurstHub

/-! ## Runs -/

section Served

variable {config : BurstConfig} {reference : BurstReference} {hub : BurstHub}

/-- The counters of publications are those of the reference. -/
structure Tallies (reference : BurstReference) (state : BurstState) :
    Prop where
  received : state.snapshot.received.toNat =
    min (reference.suppressed + reference.published.length) (2 ^ 64 - 1)
  duplicates : state.snapshot.duplicates.toNat =
    min reference.suppressed (2 ^ 64 - 1)

structure Serves (config : BurstConfig) (reference : BurstReference)
    (hub : BurstHub) : Prop where
  follows : Follows config reference hub
  keepsOrder : hub.state.KeepsOrder reference.published
  tallies : Tallies reference hub.state

theorem Serves.publish (h : Serves config reference hub)
    (reply : DeviceReply) (now receivedAt : Nat) :
    (hub.state.tryPublish reply now receivedAt).2.KeepsOrder
        (reference.publish config reply now receivedAt).published ∧
      Tallies (reference.publish config reply now receivedAt)
        (hub.state.tryPublish reply now receivedAt).2 := by
  obtain ⟨hreceived, hduplicates⟩ := h.tallies
  have hconfig := h.follows.config
  subst hconfig
  unfold BurstReference.publish
  rcases BurstState.tryPublish_cases h.follows.tracks reply now receivedAt with
    ⟨hinvalid, error, hcall⟩ | ⟨hvalid, hholds, hcall⟩ |
    ⟨hvalid, hholds, hcall⟩
  · rw [if_pos hinvalid, hcall]
    exact ⟨h.keepsOrder.same rfl, hreceived, hduplicates⟩
  · rw [if_neg (not_not.mpr hvalid), if_pos hholds, hcall]
    refine ⟨h.keepsOrder.same rfl, ?_, ?_⟩
    · simp only [BurstState.countDuplicate, BurstState.countReceived,
        saturatingAdd_toNat]
      omega
    · simp only [BurstState.countDuplicate, BurstState.countReceived,
        saturatingAdd_toNat]
      omega
  · rw [if_neg (not_not.mpr hvalid), if_neg hholds, hcall]
    have hsame := BurstState.sameSubscriptions_track hub.state.countReceived
      (BurstKey.ofReply reply) (Fingerprint.bytesOf reply) now
    have htracked := h.keepsOrder.same hsame.subscriptions
    have htallies := hub.state.snapshot_afterDelivery reply now receivedAt
    refine ⟨htracked.deliver ⟨receivedAt, reply⟩, ?_, ?_⟩
    · rw [htallies.1, saturatingAdd_toNat, List.length_append,
        List.length_singleton]
      dsimp only
      omega
    · rw [htallies.2.1]
      exact hduplicates

theorem Serves.next (h : Serves config reference hub)
    (hlimit : 0 < config.maximumTrackedKeys) (event : BurstEvent) :
    Serves config (reference.next config event) (hub.next event) := by
  have hfollows := h.follows.next hlimit event
  obtain ⟨hreceived, hduplicates⟩ := h.tallies
  cases event with
  | subscribe key capacity =>
      have hstate : (hub.next (.subscribe key capacity)).state =
          (hub.state.trySubscribe key capacity).2 :=
        hub.state_subscribe key capacity
      have htallies : Tallies reference
          (hub.state.trySubscribe key capacity).2 := by
        rcases hub.state.trySubscribe_cases key capacity with
          ⟨error, hsame⟩ | ⟨-, -, -, -, hadded⟩
        · rw [hsame]
          exact h.tallies
        · rw [hadded]
          exact ⟨hreceived, hduplicates⟩
      refine ⟨hfollows, ?_, ?_⟩
      · rw [hstate]
        exact h.keepsOrder.trySubscribe h.follows.accounts key capacity
      · rw [hstate]
        exact htallies
  | publish reply now receivedAt =>
      have hpublish := h.publish reply now receivedAt
      exact ⟨hfollows, hpublish.1, hpublish.2⟩
  | resetKey key =>
      exact ⟨hfollows, h.keepsOrder.same rfl, hreceived, hduplicates⟩
  | resetAll =>
      exact ⟨hfollows, h.keepsOrder.same rfl, hreceived, hduplicates⟩
  | receive id =>
      exact ⟨hfollows, h.keepsOrder.onChannel id Channel.accepted_tryRecv,
        hreceived, hduplicates⟩
  | drop id =>
      cases hpoisoned : hub.poisoned with
      | true =>
          simp only [BurstHub.next, BurstHub.drop, hpoisoned, if_true]
            at hfollows ⊢
          exact ⟨hfollows, h.keepsOrder.onChannel id Channel.accepted_close,
            hreceived, hduplicates⟩
      | false =>
          obtain ⟨slots, hslots⟩ := hub.state.snapshot_removeSubscription id
          have htallies : Tallies reference
              (hub.state.removeSubscription id) := by
            constructor
            · rw [hslots]
              exact hreceived
            · rw [hslots]
              exact hduplicates
          simp only [BurstHub.next, BurstHub.drop, hpoisoned,
            Bool.false_eq_true, if_false] at hfollows ⊢
          exact ⟨hfollows, (h.keepsOrder.removeSubscription id).same rfl,
            htallies.received, htallies.duplicates⟩
  | poison => exact ⟨hfollows, h.keepsOrder, hreceived, hduplicates⟩

theorem Serves.run (h : Serves config reference hub)
    (hlimit : 0 < config.maximumTrackedKeys) (events : List BurstEvent) :
    Serves config (events.foldl (BurstReference.next config) reference)
      (hub.run events) := by
  induction events generalizing reference hub with
  | nil => exact h
  | cons event events ih => exact ih (h.next hlimit event)

theorem serves_initial (config : BurstConfig) :
    Serves config {} (fromValidConfig config) := by
  refine ⟨follows_initial config, ?_, rfl, rfl⟩
  intro id entry hentry
  contradiction

end Served

theorem Serves.offers {config : BurstConfig} {reference : BurstReference}
    {hub : BurstHub} (h : Serves config reference hub) {reply : DeviceReply}
    {now : Nat} (receivedAt : Nat) (hvalid : ValidBurst reply)
    (hnot : ¬ reference.Suppresses config reply now) :
    hub.state.tryPublish reply now receivedAt =
      (.ok (.offered (BurstState.offersOf (BurstKey.ofReply reply)
        ⟨receivedAt, reply⟩ hub.state.subscriptions.entries)),
        hub.state.afterDelivery reply now receivedAt) := by
  have hconfig := h.follows.config
  subst hconfig
  rcases BurstState.tryPublish_cases h.follows.tracks reply now receivedAt with
    ⟨hinvalid, -⟩ | ⟨-, hholds, -⟩ | ⟨-, -, hcall⟩
  · exact absurd hvalid hinvalid
  · exact absurd hholds hnot
  · have hsame := BurstState.sameSubscriptions_track hub.state.countReceived
      (BurstKey.ofReply reply) (Fingerprint.bytesOf reply) now
    rw [hcall, BurstState.offerAll_eq, hsame.subscriptions]
    rfl

theorem Serves.suppressed_iff {config : BurstConfig}
    {reference : BurstReference} {hub : BurstHub}
    (h : Serves config reference hub) {reply : DeviceReply}
    (now receivedAt : Nat) (hvalid : ValidBurst reply) :
    (hub.state.tryPublish reply now receivedAt).1 = .ok .suppressed ↔
      reference.Suppresses config reply now := by
  constructor
  · intro hsuppressed
    by_contra hnot
    rw [h.offers receivedAt hvalid hnot] at hsuppressed
    injection hsuppressed with hsuppressed
    contradiction
  · intro hholds
    have hconfig := h.follows.config
    subst hconfig
    rcases BurstState.tryPublish_cases h.follows.tracks reply now
      receivedAt with ⟨hinvalid, -⟩ | ⟨-, -, hcall⟩ | ⟨-, hnot, -⟩
    · exact absurd hvalid hinvalid
    · rw [hcall]
    · exact absurd hholds hnot

/--
Along every run the hub suppresses what the reference suppresses.  Every other
valid publication is offered once to each subscription of its key and to no
other, with the effect of that offer, and a full one is counted; subscriptions
accept messages in the order of publication; and the counters add up unless they
are saturated.
-/
theorem burst_hub_suppresses_as_reference (config : BurstConfig)
    (hub : BurstHub) (hnew : new config = .ok hub)
    (events : List BurstEvent) :
    (∀ reply now receivedAt, ValidBurst reply →
      (((hub.run events).state.tryPublish reply now receivedAt).1 =
          .ok .suppressed ↔
        (BurstReference.run config events).Suppresses config reply now) ∧
      (¬ (BurstReference.run config events).Suppresses config reply now →
        ∃ offers,
          ((hub.run events).state.tryPublish reply now receivedAt).1 =
            .ok (.offered offers) ∧
          (offers.map Offer.id).Nodup ∧
          (∀ offer, offer ∈ offers ↔ ∃ id entry,
            (hub.run events).state.subscriptions.lookup id = some entry ∧
            entry.key = BurstKey.ofReply reply ∧
            offer = ⟨id, (entry.sender.trySend ⟨receivedAt, reply⟩).map
              fun _ => ()⟩) ∧
          (∀ id, ((hub.run events).state.tryPublish reply now
              receivedAt).2.subscriptions.lookup id =
            ((hub.run events).state.subscriptions.lookup id).bind
              (BurstState.afterOffer (BurstKey.ofReply reply)
                ⟨receivedAt, reply⟩)) ∧
          ((hub.run events).state.tryPublish reply now
              receivedAt).2.snapshot.backpressureDrops =
            saturatingAdd
              (hub.run events).state.snapshot.backpressureDrops
              (offers.countP Offer.isFull))) ∧
    (∀ id entry,
      (hub.run events).state.subscriptions.lookup id = some entry →
      entry.sender.accepted.Sublist (BurstState.ofKey
        (BurstReference.run config events).published entry.key)) ∧
    ((hub.run events).state.snapshot.received.toNat < 2 ^ 64 - 1 →
      (hub.run events).state.snapshot.received.toNat =
        (hub.run events).state.snapshot.duplicates.toNat +
          (BurstReference.run config events).published.length) := by
  obtain ⟨hlimit, rfl⟩ := eq_of_new hnew
  have h := (serves_initial config).run hlimit events
  refine ⟨?_, h.keepsOrder, ?_⟩
  · intro reply now receivedAt hvalid
    refine ⟨h.suppressed_iff now receivedAt hvalid, ?_⟩
    intro hnot
    rw [h.offers receivedAt hvalid hnot]
    refine ⟨_, rfl, ?_, ?_, ?_,
      (BurstState.snapshot_afterDelivery _ _ _ _).2.2⟩
    · rw [BurstState.ids_offersOf]
      exact (OrderedMap.nodup_keys _).sublist
        (List.filter_sublist.map Prod.fst)
    · intro offer
      simp only [BurstState.mem_offersOf, OrderedMap.lookup_eq_some_iff]
    · intro id
      have hsame := BurstState.sameSubscriptions_track
        ((fromValidConfig config).run events).state.countReceived
        (BurstKey.ofReply reply) (Fingerprint.bytesOf reply) now
      simp only [BurstState.afterDelivery]
      rw [BurstState.lookup_deliver, hsame.subscriptions]
      rfl
  · intro hunsaturated
    have hreceived := h.tallies.received
    have hduplicates := h.tallies.duplicates
    rw [BurstReference.run]
    omega

/-- The same value again is suppressed, and a new value is offered. -/
theorem burst_hub_suppresses_as_reference_sample :
    new {} = .ok default ∧
      ((default.run [.subscribe (BurstKey.ofReply (sampleBurst [])) 2,
        .publish (sampleBurst [1]) 0 0]).state.tryPublish (sampleBurst [1]) 5
          5).1 = .ok .suppressed ∧
      ∃ offers, ((default.run
        [.subscribe (BurstKey.ofReply (sampleBurst [])) 2,
          .publish (sampleBurst [1]) 0 0]).state.tryPublish (sampleBurst [2])
            5 5).1 = .ok (.offered offers) ∧
        (offers.map Offer.id).Nodup := by
  have h := (burst_hub_suppresses_as_reference {} default rfl
    [.subscribe (BurstKey.ofReply (sampleBurst [])) 2,
      .publish (sampleBurst [1]) 0 0]).1
  refine ⟨rfl, ?_, ?_⟩
  · exact (h (sampleBurst [1]) 5 5 (by decide)).1.mpr (by decide)
  · obtain ⟨offers, hcourse, hdistinct, -⟩ :=
      (h (sampleBurst [2]) 5 5 (by decide)).2 (by decide)
    exact ⟨offers, hcourse, hdistinct⟩

end BurstHub

end HartLink.Service

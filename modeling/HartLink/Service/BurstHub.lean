import HartLink.Operation.Request
import HartLink.Foundation.Channel
import HartLink.Foundation.Lru
import HartLink.Foundation.OrderedMap

/-!
# The hub of burst messages

Subscriptions wait for the messages of one address and command.  The hub
remembers the last message of a bounded number of keys and suppresses an
unchanged one that follows too soon.  Its operations hold one lock, so every
operation is one event here; a subscription that is dropped while the lock is
poisoned stays behind without its receiver until a delivery finds it closed.
-/

namespace HartLink.Service

open HartLink.Foundation
open HartLink.Wire
open HartLink.Operation

/-! ## Data -/

def maximumBurstSubscriptionCapacity : Nat := 65536
def maximumBurstSubscriptions : Nat := 65536
def maximumBurstTrackedKeys : Nat := 65536
def maximumBurstBufferedDeliveries : Nat := 1048576

structure BurstKey where
  address : Address
  command : CommandCode
  deriving DecidableEq, Repr

structure BurstMessage where
  receivedAt : Nat
  reply : DeviceReply
  deriving DecidableEq, Repr

structure BurstSnapshot where
  subscriptions : Nat := 0
  reservedDeliverySlots : Nat := 0
  received : UInt64 := 0
  duplicates : UInt64 := 0
  backpressureDrops : UInt64 := 0
  trackedKeys : Nat := 0
  fingerprintEvictions : UInt64 := 0
  invalidMessages : UInt64 := 0
  deriving DecidableEq, Repr

structure BurstConfig where
  maximumSubscriptions : Nat := 4096
  maximumBufferedDeliveries : Nat := 65536
  maximumTrackedKeys : Nat := 1024
  duplicateWindow : Nat := 250000000
  deriving DecidableEq, Repr

inductive BurstConfigError where
  | noSubscriptions
  | subscriptionLimit (count : Nat)
  | noBufferedDeliveries
  | bufferedDeliveryLimit (count : Nat)
  | noTrackedKeys
  | trackedKeyLimit (count : Nat)
  deriving DecidableEq, Repr

inductive BurstPublishError where
  | dataLength (length : Nat)
  | expansionLength (length : Nat)
  deriving DecidableEq, Repr

inductive BurstSubscriptionError where
  | zeroCapacity
  | capacityLimit (capacity : Nat)
  | subscriptionLimit (limit : Nat)
  | identifierSpace
  | aggregateCapacity (limit : Nat)
  deriving DecidableEq, Repr

structure SubscriptionEntry where
  key : BurstKey
  sender : Channel BurstMessage
  capacity : Nat
  deriving DecidableEq, Repr

structure Fingerprint where
  bytes : Bytes
  lastDeliveredAt : Nat
  deriving DecidableEq, Repr

structure BurstState where
  nextId : Nat := 0
  subscriptions : OrderedMap Nat SubscriptionEntry := {}
  fingerprints : Table BurstKey Fingerprint := ∅
  fingerprintOrder : List BurstKey := []
  config : BurstConfig
  snapshot : BurstSnapshot := {}

structure Offer where
  id : Nat
  outcome : Except TrySendError Unit
  deriving DecidableEq, Repr

/-- What a valid publication comes to. -/
inductive PublishCourse where
  | suppressed
  | offered (offers : List Offer)
  deriving DecidableEq, Repr

def BurstKey.ofReply (reply : DeviceReply) : BurstKey :=
  ⟨reply.address, reply.command⟩

def Fingerprint.bytesOf (reply : DeviceReply) : Bytes :=
  [reply.responseCode, reply.deviceStatus] ++ reply.data

namespace BurstState

/-! ## Subscriptions -/

def maximumId : Nat := 2 ^ 64 - 1

def maximumSlots : Nat := 2 ^ 64 - 1

def subscribeValidated (state : BurstState) (key : BurstKey)
    (capacity : Nat) : Except BurstSubscriptionError Nat × BurstState :=
  let aggregateCapacity := state.snapshot.reservedDeliverySlots + capacity
  if state.config.maximumSubscriptions ≤ state.subscriptions.length then
    (.error (.subscriptionLimit state.config.maximumSubscriptions), state)
  else if maximumSlots < aggregateCapacity then
    (.error (.aggregateCapacity state.config.maximumBufferedDeliveries), state)
  else if state.config.maximumBufferedDeliveries < aggregateCapacity then
    (.error (.aggregateCapacity state.config.maximumBufferedDeliveries), state)
  else if state.nextId = maximumId then (.error .identifierSpace, state)
  else
    let id := state.nextId + 1
    let subscriptions := state.subscriptions.insert id
      { key, sender := { capacity }, capacity }
    (.ok id, { state with
      nextId := id
      subscriptions
      snapshot := { state.snapshot with
        subscriptions := subscriptions.length
        reservedDeliverySlots := aggregateCapacity } })

def trySubscribe (state : BurstState) (key : BurstKey) (capacity : Nat) :
    Except BurstSubscriptionError Nat × BurstState :=
  if capacity = 0 then (.error .zeroCapacity, state)
  else if maximumBurstSubscriptionCapacity < capacity then
    (.error (.capacityLimit capacity), state)
  else state.subscribeValidated key capacity

def subscribeDefault (state : BurstState) (key : BurstKey) :
    Except BurstSubscriptionError Nat × BurstState :=
  state.trySubscribe key 64

def removeSubscription (state : BurstState) (id : Nat) : BurstState :=
  match state.subscriptions.lookup id with
  | none => state
  | some entry =>
      { state with
        subscriptions := state.subscriptions.erase id
        snapshot := { state.snapshot with
          reservedDeliverySlots :=
            state.snapshot.reservedDeliverySlots - entry.capacity } }

def countSubscriptions (state : BurstState) : BurstState :=
  { state with
    snapshot := { state.snapshot with
      subscriptions := state.subscriptions.length } }

def dropSubscription (state : BurstState) (id : Nat) : BurstState :=
  (state.removeSubscription id).countSubscriptions

def onChannel (state : BurstState) (id : Nat)
    (act : Channel BurstMessage → Channel BurstMessage) : BurstState :=
  { state with
    subscriptions := state.subscriptions.modify id fun entry =>
      { entry with sender := act entry.sender } }

/-! ## Publication -/

def isDuplicate (state : BurstState) (key : BurstKey) (fingerprint : Bytes)
    (now : Nat) : Bool :=
  (state.fingerprints.lookup key).any fun previous =>
    state.config.duplicateWindow ≠ 0 && previous.bytes == fingerprint &&
      decide (now - previous.lastDeliveredAt < state.config.duplicateWindow)

/-- A held key leaves the order; a new one may evict the oldest. -/
def makeRoom (state : BurstState) (key : BurstKey) : BurstState :=
  if key ∈ state.fingerprints then
    { state with fingerprintOrder :=
        state.fingerprintOrder.filter fun candidate => candidate ≠ key }
  else if state.fingerprints.keys.card =
      state.config.maximumTrackedKeys then
    match state.fingerprintOrder with
    | [] => state
    | oldest :: fingerprintOrder =>
        { state with
          fingerprintOrder
          fingerprints := state.fingerprints.erase oldest
          snapshot := { state.snapshot with
            fingerprintEvictions :=
              saturatingAdd state.snapshot.fingerprintEvictions 1 } }
  else state

def track (state : BurstState) (key : BurstKey) (fingerprint : Bytes)
    (now : Nat) : BurstState :=
  let state := state.makeRoom key
  let fingerprints := state.fingerprints.insert key ⟨fingerprint, now⟩
  { state with
    fingerprints
    fingerprintOrder := state.fingerprintOrder ++ [key]
    snapshot := { state.snapshot with
      trackedKeys := fingerprints.keys.card } }

structure Delivery where
  offers : List Offer := []
  closed : List Nat := []
  dropped : UInt64 := 0
  deriving DecidableEq, Repr

def offerTo (key : BurstKey) (message : BurstMessage) (delivery : Delivery)
    (entry : Nat × SubscriptionEntry) : Delivery :=
  if entry.2.key ≠ key then delivery
  else
    let outcome := (entry.2.sender.trySend message).map fun _ => ()
    let delivery := { delivery with
      offers := delivery.offers ++ [⟨entry.1, outcome⟩] }
    match outcome with
    | .ok _ => delivery
    | .error .full =>
        { delivery with dropped := saturatingAdd delivery.dropped 1 }
    | .error .closed =>
        { delivery with closed := delivery.closed ++ [entry.1] }

def offerAll (state : BurstState) (key : BurstKey) (message : BurstMessage) :
    Delivery :=
  state.subscriptions.entries.foldl (offerTo key message) {}

def sendAll (state : BurstState) (key : BurstKey) (message : BurstMessage) :
    BurstState :=
  { state with
    subscriptions := state.subscriptions.mapValues fun _ entry =>
      if entry.key ≠ key then entry
      else { entry with sender := entry.sender.offered message } }

def deliver (state : BurstState) (key : BurstKey) (message : BurstMessage) :
    Delivery × BurstState :=
  let delivery := state.offerAll key message
  let state := state.sendAll key message
  let state := { state with
    snapshot := { state.snapshot with
      backpressureDrops := saturatingAdd state.snapshot.backpressureDrops
        delivery.dropped.toNat } }
  let state := delivery.closed.foldl removeSubscription state
  (delivery, state.countSubscriptions)

def markInvalid (state : BurstState) : BurstState :=
  { state with
    snapshot := { state.snapshot with
      invalidMessages := saturatingAdd state.snapshot.invalidMessages 1 } }

def countReceived (state : BurstState) : BurstState :=
  { state with
    snapshot := { state.snapshot with
      received := saturatingAdd state.snapshot.received 1 } }

def countDuplicate (state : BurstState) : BurstState :=
  { state with
    snapshot := { state.snapshot with
      duplicates := saturatingAdd state.snapshot.duplicates 1 } }

/-- The caller gets no more than that the publication was valid. -/
def tryPublish (state : BurstState) (reply : DeviceReply)
    (now receivedAt : Nat) :
    Except BurstPublishError PublishCourse × BurstState :=
  if 255 < reply.data.length then
    (.error (.dataLength reply.data.length), state.markInvalid)
  else if 3 < reply.frameExpansion.length then
    (.error (.expansionLength reply.frameExpansion.length), state.markInvalid)
  else
    let key := BurstKey.ofReply reply
    let fingerprint := Fingerprint.bytesOf reply
    let state := state.countReceived
    if state.isDuplicate key fingerprint now then
      (.ok .suppressed, state.countDuplicate)
    else
      let (delivery, state) :=
        (state.track key fingerprint now).deliver key ⟨receivedAt, reply⟩
      (.ok (.offered delivery.offers), state)

def resetKey (state : BurstState) (key : BurstKey) : BurstState :=
  let fingerprints := state.fingerprints.erase key
  { state with
    fingerprints
    fingerprintOrder :=
      state.fingerprintOrder.filter fun candidate => candidate ≠ key
    snapshot := { state.snapshot with
      trackedKeys := fingerprints.keys.card } }

def resetAll (state : BurstState) : BurstState :=
  { state with
    fingerprints := ∅
    fingerprintOrder := []
    snapshot := { state.snapshot with trackedKeys := 0 } }

end BurstState

/-! ## The hub -/

/-- `issued` are the ids handed out so far, newest first. -/
structure BurstHub where
  state : BurstState
  poisoned : Bool := false
  issued : List Nat := []

inductive BurstEvent where
  | subscribe (key : BurstKey) (capacity : Nat)
  | publish (reply : DeviceReply) (now receivedAt : Nat)
  | resetKey (key : BurstKey)
  | resetAll
  | receive (id : Nat)
  | drop (id : Nat)
  | poison
  deriving DecidableEq, Repr

namespace BurstHub

def fromValidConfig (config : BurstConfig) : BurstHub :=
  { state := { config } }

def new (config : BurstConfig) : Except BurstConfigError BurstHub :=
  if config.maximumSubscriptions = 0 then .error .noSubscriptions
  else if maximumBurstSubscriptions < config.maximumSubscriptions then
    .error (.subscriptionLimit config.maximumSubscriptions)
  else if config.maximumBufferedDeliveries = 0 then
    .error .noBufferedDeliveries
  else if maximumBurstBufferedDeliveries <
      config.maximumBufferedDeliveries then
    .error (.bufferedDeliveryLimit config.maximumBufferedDeliveries)
  else if config.maximumTrackedKeys = 0 then .error .noTrackedKeys
  else if maximumBurstTrackedKeys < config.maximumTrackedKeys then
    .error (.trackedKeyLimit config.maximumTrackedKeys)
  else .ok (fromValidConfig config)

def default : BurstHub := fromValidConfig {}

def subscribe (hub : BurstHub) (key : BurstKey) (capacity : Nat) :
    BurstHub :=
  match hub.state.trySubscribe key capacity with
  | (.ok id, state) => { hub with state, issued := id :: hub.issued }
  | (.error _, state) => { hub with state }

/-- Without the lock only the receiver goes. -/
def drop (hub : BurstHub) (id : Nat) : BurstHub :=
  if hub.poisoned then { hub with state := hub.state.onChannel id .close }
  else { hub with state := hub.state.dropSubscription id }

def next (hub : BurstHub) : BurstEvent → BurstHub
  | .subscribe key capacity => hub.subscribe key capacity
  | .publish reply now receivedAt =>
      { hub with state := (hub.state.tryPublish reply now receivedAt).2 }
  | .resetKey key => { hub with state := hub.state.resetKey key }
  | .resetAll => { hub with state := hub.state.resetAll }
  | .receive id => { hub with state := hub.state.onChannel id .tryRecv }
  | .drop id => hub.drop id
  | .poison => { hub with poisoned := true }

def run (hub : BurstHub) (events : List BurstEvent) : BurstHub :=
  events.foldl next hub

end BurstHub

/-! ## The reference -/

/-- What is remembered of a message, and when it was delivered. -/
structure Remembered where
  responseCode : UInt8
  deviceStatus : UInt8
  data : Bytes
  time : Nat
  deriving DecidableEq, Repr

namespace Remembered

def ofReply (reply : DeviceReply) (time : Nat) : Remembered :=
  ⟨reply.responseCode, reply.deviceStatus, reply.data, time⟩

def Matches (remembered : Remembered) (reply : DeviceReply) : Prop :=
  remembered.responseCode = reply.responseCode ∧
    remembered.deviceStatus = reply.deviceStatus ∧
    remembered.data = reply.data

instance (remembered : Remembered) (reply : DeviceReply) :
    Decidable (remembered.Matches reply) :=
  inferInstanceAs (Decidable (_ ∧ _ ∧ _))

def stored (remembered : Remembered) : Fingerprint :=
  ⟨[remembered.responseCode, remembered.deviceStatus] ++ remembered.data,
    remembered.time⟩

theorem stored_ofReply (reply : DeviceReply) (time : Nat) :
    (ofReply reply time).stored = ⟨Fingerprint.bytesOf reply, time⟩ :=
  rfl

theorem bytes_stored_iff (remembered : Remembered) (reply : DeviceReply) :
    remembered.stored.bytes = Fingerprint.bytesOf reply ↔
      remembered.Matches reply := by
  simp [stored, Fingerprint.bytesOf, Matches]

end Remembered

/-- The frame of a reply has room for this much. -/
def ValidBurst (reply : DeviceReply) : Prop :=
  reply.data.length ≤ 255 ∧ reply.frameExpansion.length ≤ 3

instance (reply : DeviceReply) : Decidable (ValidBurst reply) :=
  inferInstanceAs (Decidable (_ ∧ _))

/--
What the hub is meant to do, whatever its subscriptions: a cache of bounded
size, the messages that are not suppressed in the order of their publication,
and the number of those that are.
-/
structure BurstReference where
  cache : List (BurstKey × Remembered) := []
  published : List BurstMessage := []
  suppressed : Nat := 0
  deriving DecidableEq, Repr

namespace BurstReference

variable (config : BurstConfig)

/-- The cache holds the key with the same content and a small age. -/
def Suppresses (reference : BurstReference) (reply : DeviceReply)
    (now : Nat) : Prop :=
  0 < config.duplicateWindow ∧
    ∃ remembered, (BurstKey.ofReply reply, remembered) ∈ reference.cache ∧
      remembered.Matches reply ∧
      now - remembered.time < config.duplicateWindow

instance (reference : BurstReference) (reply : DeviceReply) (now : Nat) :
    Decidable (reference.Suppresses config reply now) :=
  decidable_of_iff (0 < config.duplicateWindow ∧
      ∃ entry ∈ reference.cache, entry.1 = BurstKey.ofReply reply ∧
        entry.2.Matches reply ∧
        now - entry.2.time < config.duplicateWindow) (by
    apply and_congr_right'
    constructor
    · rintro ⟨⟨key, remembered⟩, hentry, rfl, h⟩
      exact ⟨remembered, hentry, h⟩
    · rintro ⟨remembered, hentry, h⟩
      exact ⟨_, hentry, rfl, h⟩)

def publish (reference : BurstReference) (reply : DeviceReply)
    (now receivedAt : Nat) : BurstReference :=
  if ¬ ValidBurst reply then reference
  else if reference.Suppresses config reply now then
    { reference with suppressed := reference.suppressed + 1 }
  else
    { reference with
      cache := Lru.refresh config.maximumTrackedKeys reference.cache
        (BurstKey.ofReply reply) (.ofReply reply now)
      published := reference.published ++ [⟨receivedAt, reply⟩] }

def next (reference : BurstReference) : BurstEvent → BurstReference
  | .publish reply now receivedAt =>
      reference.publish config reply now receivedAt
  | .resetKey key =>
      { reference with cache := Lru.forget reference.cache key }
  | .resetAll => { reference with cache := [] }
  | _ => reference

def run (events : List BurstEvent) : BurstReference :=
  events.foldl (next config) {}

end BurstReference

namespace BurstState

/-! ## Tracked keys -/

section Tracking

variable {cache : List (BurstKey × Remembered)} {state next : BurstState}

/-- The fingerprints and their order are this cache. -/
structure Tracks (cache : List (BurstKey × Remembered))
    (state : BurstState) : Prop where
  represents : Lru.Represents Remembered.stored cache state.fingerprints
    state.fingerprintOrder
  bounded : cache.length ≤ state.config.maximumTrackedKeys
  counted : state.snapshot.trackedKeys = cache.length

structure SameFingerprints (state next : BurstState) : Prop where
  fingerprints : next.fingerprints = state.fingerprints
  order : next.fingerprintOrder = state.fingerprintOrder
  config : next.config = state.config
  tracked : next.snapshot.trackedKeys = state.snapshot.trackedKeys

theorem SameFingerprints.trans {last : BurstState}
    (h : SameFingerprints state next) (hlast : SameFingerprints next last) :
    SameFingerprints state last :=
  ⟨hlast.fingerprints.trans h.fingerprints, hlast.order.trans h.order,
    hlast.config.trans h.config, hlast.tracked.trans h.tracked⟩

theorem Tracks.same (h : Tracks cache state)
    (hsame : SameFingerprints state next) : Tracks cache next := by
  refine ⟨?_, ?_, ?_⟩
  · rw [hsame.fingerprints, hsame.order]
    exact h.represents
  · rw [hsame.config]
    exact h.bounded
  · rw [hsame.tracked]
    exact h.counted

theorem Tracks.resetKey (h : Tracks cache state) (key : BurstKey) :
    Tracks (Lru.forget cache key) (state.resetKey key) := by
  have hforget := h.represents.forget key
  refine ⟨hforget, ?_, ?_⟩
  · exact (List.length_filter_le _ _).trans h.bounded
  · exact hforget.card_keys.trans hforget.length

theorem Tracks.resetAll : Tracks [] state.resetAll :=
  ⟨Lru.represents_empty, Nat.zero_le _, rfl⟩

theorem represents_track (h : Tracks cache state)
    (hlimit : 0 < state.config.maximumTrackedKeys) (key : BurstKey)
    {remembered : Remembered} {fingerprint : Bytes} {now : Nat}
    (hstored : remembered.stored = ⟨fingerprint, now⟩) :
    Lru.Represents Remembered.stored
      (Lru.refresh state.config.maximumTrackedKeys cache key remembered)
      (state.track key fingerprint now).fingerprints
      (state.track key fingerprint now).fingerprintOrder := by
  have hmem : key ∈ state.fingerprints ↔ key ∈ cache.map Prod.fst := by
    rw [h.represents.mem_iff, h.represents.ordered]
  have hlength := h.represents.length
  have hcard := h.represents.card_keys
  simp only [track, makeRoom, Lru.refresh, Lru.makeRoom, ← hstored, ← hmem]
  by_cases hheld : key ∈ state.fingerprints
  · rw [if_pos hheld, if_pos hheld]
    exact h.represents.move key remembered
  rw [if_neg hheld, if_neg hheld, hcard, hlength]
  have hfresh : key ∉ state.fingerprintOrder := by
    rwa [← h.represents.mem_iff]
  by_cases hfull : cache.length = state.config.maximumTrackedKeys
  · rw [if_pos hfull, if_pos hfull]
    cases horder : state.fingerprintOrder with
    | nil =>
        rw [horder, List.length_nil] at hlength
        omega
    | cons oldest rest =>
        rw [horder] at hfresh
        have htail := (horder ▸ h.represents).tail
        exact htail.concat (fun hrest => hfresh (List.mem_cons_of_mem _ hrest))
          remembered
  · rw [if_neg hfull, if_neg hfull]
    exact h.represents.concat hfresh remembered

@[simp] theorem config_track (state : BurstState) (key : BurstKey)
    (fingerprint : Bytes) (now : Nat) :
    (state.track key fingerprint now).config = state.config := by
  unfold track makeRoom
  split_ifs
  · rfl
  · cases state.fingerprintOrder <;> rfl
  · rfl

theorem Tracks.track (h : Tracks cache state)
    (hlimit : 0 < state.config.maximumTrackedKeys) (key : BurstKey)
    {remembered : Remembered} {fingerprint : Bytes} {now : Nat}
    (hstored : remembered.stored = ⟨fingerprint, now⟩) :
    Tracks (Lru.refresh state.config.maximumTrackedKeys cache key remembered)
      (state.track key fingerprint now) := by
  have hrepresents := represents_track h hlimit key hstored
  refine ⟨hrepresents, ?_, ?_⟩
  · rw [config_track]
    exact Lru.length_refresh_le hlimit h.bounded key remembered
  · exact hrepresents.card_keys.trans hrepresents.length

end Tracking

/-! ## Subscriptions and their slots -/

section Slots

variable {state next : BurstState}

/-- The slots are those of the entries, within the limits. -/
structure Reserves (state : BurstState) : Prop where
  limited : state.subscriptions.length ≤ state.config.maximumSubscriptions
  reserved : state.snapshot.reservedDeliverySlots =
    state.subscriptions.total SubscriptionEntry.capacity
  fits : state.snapshot.reservedDeliverySlots ≤
    state.config.maximumBufferedDeliveries
  known : ∀ id ∈ state.subscriptions.keys, id ≤ state.nextId

structure Accounts (state : BurstState) : Prop extends Reserves state where
  counted : state.snapshot.subscriptions = state.subscriptions.length

structure SameSubscriptions (state next : BurstState) : Prop where
  nextId : next.nextId = state.nextId
  subscriptions : next.subscriptions = state.subscriptions
  config : next.config = state.config
  counted : next.snapshot.subscriptions = state.snapshot.subscriptions
  reserved : next.snapshot.reservedDeliverySlots =
    state.snapshot.reservedDeliverySlots

theorem Accounts.same (h : Accounts state)
    (hsame : SameSubscriptions state next) : Accounts next := by
  obtain ⟨hnextId, hsubscriptions, hconfig, hcounted, hreserved⟩ := hsame
  refine ⟨⟨?_, ?_, ?_, ?_⟩, ?_⟩
  · simpa [hsubscriptions, hconfig] using h.limited
  · simpa [hsubscriptions, hreserved] using h.reserved
  · simpa [hreserved, hconfig] using h.fits
  · simpa [hsubscriptions, hnextId] using h.known
  · simpa [hsubscriptions, hcounted] using h.counted

theorem sameSubscriptions_track (state : BurstState) (key : BurstKey)
    (fingerprint : Bytes) (now : Nat) :
    SameSubscriptions state (state.track key fingerprint now) := by
  unfold track makeRoom
  split_ifs
  · exact ⟨rfl, rfl, rfl, rfl, rfl⟩
  · cases state.fingerprintOrder with
    | nil => exact ⟨rfl, rfl, rfl, rfl, rfl⟩
    | cons oldest rest => exact ⟨rfl, rfl, rfl, rfl, rfl⟩
  · exact ⟨rfl, rfl, rfl, rfl, rfl⟩

theorem Reserves.mapValues (h : Reserves state)
    {change : Nat → SubscriptionEntry → SubscriptionEntry}
    (hchange : ∀ id entry, (change id entry).capacity = entry.capacity) :
    Reserves { state with
      subscriptions := state.subscriptions.mapValues change } := by
  refine ⟨?_, ?_, h.fits, ?_⟩
  · simpa [OrderedMap.length, OrderedMap.mapValues] using h.limited
  · rw [OrderedMap.total_mapValues _ _ hchange]
    exact h.reserved
  · simpa using h.known

theorem Reserves.removeSubscription (h : Reserves state) (id : Nat) :
    Reserves (state.removeSubscription id) := by
  unfold BurstState.removeSubscription
  cases hentry : state.subscriptions.lookup id with
  | none => exact h
  | some entry =>
      have hlength := state.subscriptions.length_erase hentry
      have htotal := state.subscriptions.total_erase
        SubscriptionEntry.capacity hentry
      have hlimited := h.limited
      have hreserved := h.reserved
      have hfits := h.fits
      refine ⟨?_, ?_, ?_, ?_⟩
      · dsimp only
        omega
      · dsimp only
        omega
      · dsimp only
        omega
      · intro other hother
        exact h.known other ((OrderedMap.mem_keys_erase _).mp hother).1

theorem Reserves.foldl_remove (h : Reserves state) (ids : List Nat) :
    Reserves (ids.foldl BurstState.removeSubscription state) := by
  induction ids generalizing state with
  | nil => exact h
  | cons id ids ih => exact ih (h.removeSubscription id)

theorem Reserves.countSubscriptions (h : Reserves state) :
    Accounts state.countSubscriptions :=
  ⟨⟨h.limited, h.reserved, h.fits, h.known⟩, rfl⟩

theorem Accounts.onChannel (h : Accounts state) (id : Nat)
    (act : Channel BurstMessage → Channel BurstMessage) :
    Accounts (state.onChannel id act) := by
  refine ⟨h.toReserves.mapValues ?_, ?_⟩
  · intro other entry
    split_ifs <;> rfl
  · rw [BurstState.onChannel, h.counted]
    simp [OrderedMap.length, OrderedMap.modify, OrderedMap.mapValues]

theorem Accounts.deliver (h : Accounts state) (key : BurstKey)
    (message : BurstMessage) : Accounts (state.deliver key message).2 := by
  have hsent : Reserves (state.sendAll key message) := by
    apply h.toReserves.mapValues
    intro id entry
    split_ifs <;> rfl
  have hdropped (drops : UInt64) : Reserves
      { state.sendAll key message with
        snapshot := { (state.sendAll key message).snapshot with
          backpressureDrops := drops } } :=
    ⟨hsent.limited, hsent.reserved, hsent.fits, hsent.known⟩
  exact ((hdropped _).foldl_remove _).countSubscriptions

theorem trySubscribe_cases (state : BurstState) (key : BurstKey)
    (capacity : Nat) :
    (∃ error, state.trySubscribe key capacity = (.error error, state)) ∨
    0 < capacity ∧
      state.subscriptions.length < state.config.maximumSubscriptions ∧
      state.snapshot.reservedDeliverySlots + capacity ≤
        state.config.maximumBufferedDeliveries ∧
      state.nextId ≠ maximumId ∧
      state.trySubscribe key capacity = (.ok (state.nextId + 1),
        { state with
          nextId := state.nextId + 1
          subscriptions := state.subscriptions.insert (state.nextId + 1)
            { key, sender := { capacity }, capacity }
          snapshot := { state.snapshot with
            subscriptions := (state.subscriptions.insert (state.nextId + 1)
              { key, sender := { capacity }, capacity }).length
            reservedDeliverySlots :=
              state.snapshot.reservedDeliverySlots + capacity } }) := by
  unfold trySubscribe subscribeValidated
  dsimp only
  split_ifs with hzero hcapacity hlimit hslots hfits hspace
  · exact .inl ⟨_, rfl⟩
  · exact .inl ⟨_, rfl⟩
  · exact .inl ⟨_, rfl⟩
  · exact .inl ⟨_, rfl⟩
  · exact .inl ⟨_, rfl⟩
  · exact .inl ⟨_, rfl⟩
  · exact .inr ⟨Nat.pos_of_ne_zero hzero, Nat.lt_of_not_le hlimit,
      Nat.le_of_not_lt hfits, hspace, rfl⟩

theorem Accounts.trySubscribe (h : Accounts state) (key : BurstKey)
    (capacity : Nat) : Accounts (state.trySubscribe key capacity).2 := by
  rcases state.trySubscribe_cases key capacity with
    ⟨error, hsame⟩ | ⟨-, hlimit, hfits, -, hadded⟩
  · rwa [hsame]
  · have hlast : ∀ other ∈ state.subscriptions.keys,
        other < state.nextId + 1 := fun other hother =>
      Nat.lt_succ_of_le (h.known other hother)
    have hentries := state.subscriptions.entries_insert_of_last
      { key, sender := { capacity }, capacity } hlast
    rw [hadded]
    refine ⟨⟨?_, ?_, hfits, ?_⟩, rfl⟩
    · simp only [OrderedMap.length, hentries, List.length_append,
        List.length_singleton]
      exact hlimit
    · dsimp only
      rw [OrderedMap.total_insert_of_last _ _ _ hlast, h.reserved]
    · intro id hid
      simp only [OrderedMap.keys, hentries, List.map_append, List.map_cons,
        List.map_nil, List.mem_append, List.mem_singleton] at hid
      rcases hid with hid | rfl
      · exact (h.known id hid).trans (Nat.le_succ _)
      · exact Nat.le_refl _

end Slots

/-! ## Publications against the reference -/

section Publication

variable {reference : BurstReference} {state next : BurstState}

theorem isDuplicate_iff (h : Tracks reference.cache state)
    (reply : DeviceReply) (now : Nat) :
    state.isDuplicate (BurstKey.ofReply reply) (Fingerprint.bytesOf reply)
        now = true ↔
      reference.Suppresses state.config reply now := by
  have hdistinct := h.represents.distinct
  rw [h.represents.ordered] at hdistinct
  simp only [isDuplicate, BurstReference.Suppresses, h.represents.found,
    ← findKey?_eq_some_iff hdistinct]
  cases findKey? reference.cache (BurstKey.ofReply reply) with
  | none => simp
  | some remembered =>
      have htime : remembered.stored.lastDeliveredAt = remembered.time := rfl
      simp [← Remembered.bytes_stored_iff, htime, Nat.pos_iff_ne_zero,
        and_assoc]

theorem sameFingerprints_removeSubscription (state : BurstState) (id : Nat) :
    SameFingerprints state (state.removeSubscription id) := by
  unfold removeSubscription
  cases state.subscriptions.lookup id with
  | none => exact ⟨rfl, rfl, rfl, rfl⟩
  | some entry => exact ⟨rfl, rfl, rfl, rfl⟩

theorem sameFingerprints_foldl_remove (state : BurstState)
    (ids : List Nat) :
    SameFingerprints state (ids.foldl removeSubscription state) := by
  induction ids generalizing state with
  | nil => exact ⟨rfl, rfl, rfl, rfl⟩
  | cons id ids ih =>
      exact (sameFingerprints_removeSubscription state id).trans (ih _)

theorem sameFingerprints_deliver (state : BurstState) (key : BurstKey)
    (message : BurstMessage) :
    SameFingerprints state (state.deliver key message).2 := by
  have hremoved := sameFingerprints_foldl_remove
    { state.sendAll key message with
      snapshot := { state.snapshot with
        backpressureDrops := saturatingAdd state.snapshot.backpressureDrops
          (state.offerAll key message).dropped.toNat } }
    (state.offerAll key message).closed
  exact ⟨hremoved.fingerprints, hremoved.order, hremoved.config,
    hremoved.tracked⟩

theorem sameFingerprints_trySubscribe (state : BurstState) (key : BurstKey)
    (capacity : Nat) :
    SameFingerprints state (state.trySubscribe key capacity).2 := by
  rcases state.trySubscribe_cases key capacity with
    ⟨error, hsame⟩ | ⟨-, -, -, -, hadded⟩
  · rw [hsame]
    exact ⟨rfl, rfl, rfl, rfl⟩
  · rw [hadded]
    exact ⟨rfl, rfl, rfl, rfl⟩

def afterDelivery (state : BurstState) (reply : DeviceReply)
    (now receivedAt : Nat) : BurstState :=
  ((state.countReceived.track (BurstKey.ofReply reply)
    (Fingerprint.bytesOf reply) now).deliver (BurstKey.ofReply reply)
      ⟨receivedAt, reply⟩).2

theorem tryPublish_cases (h : Tracks reference.cache state)
    (reply : DeviceReply) (now receivedAt : Nat) :
    (¬ ValidBurst reply ∧ ∃ error,
      state.tryPublish reply now receivedAt =
        (.error error, state.markInvalid)) ∨
    (ValidBurst reply ∧ reference.Suppresses state.config reply now ∧
      state.tryPublish reply now receivedAt =
        (.ok .suppressed, state.countReceived.countDuplicate)) ∨
    (ValidBurst reply ∧ ¬ reference.Suppresses state.config reply now ∧
      state.tryPublish reply now receivedAt =
        (.ok (.offered ((state.countReceived.track (BurstKey.ofReply reply)
          (Fingerprint.bytesOf reply) now).offerAll (BurstKey.ofReply reply)
            ⟨receivedAt, reply⟩).offers),
          state.afterDelivery reply now receivedAt)) := by
  have hcounted : Tracks reference.cache state.countReceived :=
    h.same ⟨rfl, rfl, rfl, rfl⟩
  have hduplicate := isDuplicate_iff hcounted reply now
  unfold tryPublish ValidBurst
  dsimp only
  split_ifs with hdata hexpansion hsuppressed
  · exact .inl ⟨fun hvalid => absurd hvalid.1 (Nat.not_le.mpr hdata), _, rfl⟩
  · exact .inl ⟨fun hvalid => absurd hvalid.2 (Nat.not_le.mpr hexpansion), _,
      rfl⟩
  · exact .inr (.inl ⟨⟨Nat.le_of_not_lt hdata, Nat.le_of_not_lt hexpansion⟩,
      hduplicate.mp hsuppressed, rfl⟩)
  · exact .inr (.inr ⟨⟨Nat.le_of_not_lt hdata, Nat.le_of_not_lt hexpansion⟩,
      fun hholds => hsuppressed (hduplicate.mpr hholds), rfl⟩)

@[simp] theorem nextId_removeSubscription (state : BurstState) (id : Nat) :
    (state.removeSubscription id).nextId = state.nextId := by
  unfold removeSubscription
  split <;> rfl

theorem nextId_foldl_remove (state : BurstState) (ids : List Nat) :
    (ids.foldl removeSubscription state).nextId = state.nextId := by
  induction ids generalizing state with
  | nil => rfl
  | cons id ids ih =>
      rw [List.foldl_cons, ih, nextId_removeSubscription]

theorem tryPublish_keeps (h : Tracks reference.cache state)
    (reply : DeviceReply) (now receivedAt : Nat) :
    (state.tryPublish reply now receivedAt).2.nextId = state.nextId ∧
      (state.tryPublish reply now receivedAt).2.config = state.config := by
  rcases tryPublish_cases h reply now receivedAt with
    ⟨hinvalid, error, hcall⟩ | ⟨hvalid, hholds, hcall⟩ |
    ⟨hvalid, hholds, hcall⟩
  · rw [hcall]
    exact ⟨rfl, rfl⟩
  · rw [hcall]
    exact ⟨rfl, rfl⟩
  · have htrack := sameSubscriptions_track state.countReceived
      (BurstKey.ofReply reply) (Fingerprint.bytesOf reply) now
    rw [hcall]
    refine ⟨?_, ?_⟩
    · exact (nextId_foldl_remove _ _).trans htrack.nextId
    · exact (sameFingerprints_deliver _ _ _).config.trans htrack.config

theorem Tracks.afterDelivery (h : Tracks reference.cache state)
    (hlimit : 0 < state.config.maximumTrackedKeys) (reply : DeviceReply)
    (now receivedAt : Nat) :
    Tracks (Lru.refresh state.config.maximumTrackedKeys reference.cache
      (BurstKey.ofReply reply) (.ofReply reply now))
      (state.afterDelivery reply now receivedAt) := by
  have hcounted : Tracks reference.cache state.countReceived :=
    h.same ⟨rfl, rfl, rfl, rfl⟩
  exact (hcounted.track hlimit _ (Remembered.stored_ofReply reply now)).same
    (sameFingerprints_deliver _ _ _)

theorem Tracks.tryPublish (h : Tracks reference.cache state)
    (hlimit : 0 < state.config.maximumTrackedKeys) (reply : DeviceReply)
    (now receivedAt : Nat) :
    Tracks (reference.publish state.config reply now receivedAt).cache
      (state.tryPublish reply now receivedAt).2 := by
  unfold BurstReference.publish
  rcases tryPublish_cases h reply now receivedAt with
    ⟨hinvalid, error, hcall⟩ | ⟨hvalid, hholds, hcall⟩ |
    ⟨hvalid, hholds, hcall⟩
  · rw [if_pos hinvalid, hcall]
    exact h.same ⟨rfl, rfl, rfl, rfl⟩
  · rw [if_neg (not_not.mpr hvalid), if_pos hholds, hcall]
    exact h.same ⟨rfl, rfl, rfl, rfl⟩
  · rw [if_neg (not_not.mpr hvalid), if_neg hholds, hcall]
    exact h.afterDelivery hlimit reply now receivedAt

theorem Accounts.tryPublish (h : Accounts state)
    (htracks : Tracks reference.cache state) (reply : DeviceReply)
    (now receivedAt : Nat) :
    Accounts (state.tryPublish reply now receivedAt).2 := by
  have hcounted : Accounts state.countReceived :=
    h.same ⟨rfl, rfl, rfl, rfl, rfl⟩
  rcases tryPublish_cases htracks reply now receivedAt with
    ⟨hinvalid, error, hcall⟩ | ⟨hvalid, hholds, hcall⟩ |
    ⟨hvalid, hholds, hcall⟩
  · rw [hcall]
    exact h.same ⟨rfl, rfl, rfl, rfl, rfl⟩
  · rw [hcall]
    exact hcounted.same ⟨rfl, rfl, rfl, rfl, rfl⟩
  · rw [hcall]
    exact (hcounted.same (sameSubscriptions_track _ _ _ _)).deliver _ _

end Publication

end BurstState

namespace BurstHub

/-! ## Runs -/

section Runs

variable {config : BurstConfig} {reference : BurstReference} {hub : BurstHub}

structure Follows (config : BurstConfig) (reference : BurstReference)
    (hub : BurstHub) : Prop where
  config : hub.state.config = config
  tracks : hub.state.Tracks reference.cache
  accounts : hub.state.Accounts
  descending : hub.issued.Pairwise (· > ·)
  known : ∀ id ∈ hub.issued, id ≤ hub.state.nextId

/-- An event that hands out no id keeps the ids that are known. -/
theorem Follows.keep {next : BurstReference} {state : BurstState}
    {poisoned : Bool} (h : Follows config reference hub)
    (hconfig : state.config = hub.state.config)
    (hid : state.nextId = hub.state.nextId)
    (htracks : state.Tracks next.cache) (haccounts : state.Accounts) :
    Follows config next { hub with state, poisoned } := by
  refine ⟨hconfig.trans h.config, htracks, haccounts, h.descending, ?_⟩
  intro id hissued
  rw [hid]
  exact h.known id hissued

theorem state_subscribe (hub : BurstHub) (key : BurstKey) (capacity : Nat) :
    (hub.subscribe key capacity).state =
      (hub.state.trySubscribe key capacity).2 := by
  unfold subscribe
  split
  next id state hcall => rw [hcall]
  next error state hcall => rw [hcall]

theorem eq_of_new {config : BurstConfig} {hub : BurstHub}
    (h : new config = .ok hub) :
    0 < config.maximumTrackedKeys ∧ hub = fromValidConfig config := by
  unfold new at h
  split_ifs at h with _ _ _ _ hkeys
  injection h with h
  exact ⟨Nat.pos_of_ne_zero hkeys, h.symm⟩

theorem Follows.subscribe (h : Follows config reference hub)
    (key : BurstKey) (capacity : Nat) :
    Follows config reference (hub.subscribe key capacity) := by
  have htracks := h.tracks.same
    (BurstState.sameFingerprints_trySubscribe hub.state key capacity)
  have haccounts := h.accounts.trySubscribe key capacity
  unfold BurstHub.subscribe
  rcases hub.state.trySubscribe_cases key capacity with
    ⟨error, hsame⟩ | ⟨-, -, -, -, hadded⟩
  · rw [hsame]
    exact h
  · rw [hadded] at htracks haccounts ⊢
    refine ⟨h.config, htracks, haccounts, ?_, ?_⟩
    · rw [List.pairwise_cons]
      refine ⟨?_, h.descending⟩
      intro id hissued
      exact Nat.lt_succ_of_le (h.known id hissued)
    · intro id hissued
      rcases List.mem_cons.mp hissued with rfl | hissued
      · exact Nat.le_refl _
      · exact (h.known id hissued).trans (Nat.le_succ _)

theorem Follows.next (h : Follows config reference hub)
    (hlimit : 0 < config.maximumTrackedKeys) (event : BurstEvent) :
    Follows config (reference.next config event) (hub.next event) := by
  have hconfig := h.config
  cases event with
  | subscribe key capacity => exact h.subscribe key capacity
  | publish reply now receivedAt =>
      subst hconfig
      have hkeeps := BurstState.tryPublish_keeps h.tracks reply now receivedAt
      exact h.keep hkeeps.2 hkeeps.1
        (h.tracks.tryPublish hlimit reply now receivedAt)
        (h.accounts.tryPublish h.tracks reply now receivedAt)
  | resetKey key =>
      exact h.keep rfl rfl (h.tracks.resetKey key)
        (h.accounts.same ⟨rfl, rfl, rfl, rfl, rfl⟩)
  | resetAll =>
      exact h.keep rfl rfl BurstState.Tracks.resetAll
        (h.accounts.same ⟨rfl, rfl, rfl, rfl, rfl⟩)
  | receive id =>
      exact h.keep rfl rfl (h.tracks.same ⟨rfl, rfl, rfl, rfl⟩)
        (h.accounts.onChannel id _)
  | drop id =>
      simp only [BurstHub.next, BurstHub.drop]
      split_ifs
      · exact h.keep rfl rfl (h.tracks.same ⟨rfl, rfl, rfl, rfl⟩)
          (h.accounts.onChannel id _)
      · have hsame :=
          BurstState.sameFingerprints_removeSubscription hub.state id
        refine h.keep hsame.config ?_ (h.tracks.same
          ⟨hsame.fingerprints, hsame.order, hsame.config, hsame.tracked⟩)
          (h.accounts.removeSubscription id).countSubscriptions
        exact BurstState.nextId_removeSubscription hub.state id
  | poison => exact h.keep rfl rfl h.tracks h.accounts

theorem follows_initial (config : BurstConfig) :
    Follows config {} (fromValidConfig config) := by
  refine ⟨rfl, ?_, ?_, List.Pairwise.nil, ?_⟩
  · exact ⟨Lru.represents_empty, Nat.zero_le _, rfl⟩
  · refine ⟨⟨Nat.zero_le _, rfl, Nat.zero_le _, ?_⟩, rfl⟩
    simp [OrderedMap.keys, fromValidConfig]
  · intro id hissued
    contradiction

theorem Follows.run (h : Follows config reference hub)
    (hlimit : 0 < config.maximumTrackedKeys) (events : List BurstEvent) :
    Follows config (events.foldl (BurstReference.next config) reference)
      (hub.run events) := by
  induction events generalizing reference hub with
  | nil => exact h
  | cons event events ih => exact ih (h.next hlimit event)

end Runs

/--
Whatever the order of its operations, the two structures of the fingerprints
have the same keys, the counters of the snapshot are what they count, every
limit of the configuration holds, and no id is handed out twice.
-/
theorem burst_hub_counts_what_it_holds (config : BurstConfig)
    (hub : BurstHub) (hnew : new config = .ok hub)
    (events : List BurstEvent) :
    (hub.run events).state.fingerprintOrder.Nodup ∧
      (∀ key, key ∈ (hub.run events).state.fingerprintOrder ↔
        key ∈ (hub.run events).state.fingerprints) ∧
      (hub.run events).state.fingerprintOrder.length ≤
        config.maximumTrackedKeys ∧
      (hub.run events).state.snapshot.trackedKeys =
        (hub.run events).state.fingerprintOrder.length ∧
      (hub.run events).state.snapshot.subscriptions =
        (hub.run events).state.subscriptions.length ∧
      (hub.run events).state.subscriptions.length ≤
        config.maximumSubscriptions ∧
      (hub.run events).state.snapshot.reservedDeliverySlots =
        (hub.run events).state.subscriptions.total
          SubscriptionEntry.capacity ∧
      (hub.run events).state.snapshot.reservedDeliverySlots ≤
        config.maximumBufferedDeliveries ∧
      (hub.run events).issued.Nodup := by
  obtain ⟨hlimit, rfl⟩ := eq_of_new hnew
  have h := (follows_initial config).run hlimit events
  have hrepresents := h.tracks.represents
  have hbounded := h.tracks.bounded
  have hlimited := h.accounts.limited
  have hfits := h.accounts.fits
  rw [h.config] at hbounded hlimited hfits
  refine ⟨hrepresents.distinct, fun key => (hrepresents.mem_iff key).symm, ?_,
    ?_, h.accounts.counted, hlimited, h.accounts.reserved, hfits, ?_⟩
  · rwa [hrepresents.length]
  · rw [hrepresents.length]
    exact h.tracks.counted
  · exact h.descending.imp Nat.ne_of_gt

def sampleBurst (data : Bytes) : DeviceReply :=
  { address := .Polling 0 .primary, command := ⟨1⟩, responseCode := 0
    deviceStatus := 0, data, burst := true, physicalLayer := .fsk
    responsePreambles := 3, frameExpansion := [] }

/-- A subscription loses its receiver, and the next delivery removes it. -/
def receiverGone : List BurstEvent :=
  let key := BurstKey.ofReply (sampleBurst [])
  [.subscribe key 2, .publish (sampleBurst [1]) 0 0, .poison, .drop 1,
    .publish (sampleBurst [2]) 5 5, .subscribe key 3]

theorem burst_hub_counts_what_it_holds_receiverGone :
    new {} = .ok default ∧
      (default.run receiverGone).state.snapshot.reservedDeliverySlots = 3 ∧
      (default.run receiverGone).state.snapshot.subscriptions =
        (default.run receiverGone).state.subscriptions.length ∧
      (default.run receiverGone).issued.Nodup := by
  have h := burst_hub_counts_what_it_holds {} default rfl receiverGone
  exact ⟨rfl, by decide +kernel, h.2.2.2.2.1, h.2.2.2.2.2.2.2.2⟩

end BurstHub

end HartLink.Service

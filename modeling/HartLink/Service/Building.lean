import HartLink.Service.Adaptation
import HartLink.Service.Configuration
import HartLink.Service.Occupancy

/-!
# Making a link

There are three ways to a link: `create_link` mends a configuration,
`try_create_link` refuses a bad one, and the builder checks everything that it is
given.  None of them panics, and the links that they make start where the runs of a
link start, with limits and a layout that have been checked.
-/

namespace HartLink.Service

open HartLink.Foundation
open HartLink.Wire

/-! ## Queues -/

inductive QueueDefinitionError where
  | zeroCapacity (queue : QueueId)
  | capacityLimit (queue : QueueId) (capacity : Nat)
  | zeroWeight
  deriving DecidableEq, Repr

def QueuePriority.ofWeight (weight : UInt16) :
    Except QueueDefinitionError QueuePriority :=
  if h : weight ≠ 0 then .ok (.weighted ⟨weight, h⟩) else .error .zeroWeight

namespace QueueConfig

def new (id : QueueId) (capacity : Nat) (priority : QueuePriority) :
    Except QueueDefinitionError QueueConfig :=
  if capacity = 0 then .error (.zeroCapacity id)
  else if capacity > maximumQueueCapacity then
    .error (.capacityLimit id capacity)
  else .ok ⟨id, capacity, priority⟩

def weighted (id : QueueId) (capacity : Nat) (weight : UInt16) :
    Except QueueDefinitionError QueueConfig := do
  new id capacity (← QueuePriority.ofWeight weight)

theorem new_ok_iff {id : QueueId} {capacity : Nat} {priority : QueuePriority}
    {config : QueueConfig} :
    new id capacity priority = .ok config ↔
      (0 < capacity ∧ capacity ≤ maximumQueueCapacity) ∧
        config = ⟨id, capacity, priority⟩ := by
  unfold new
  split_ifs with hzero hlimit
  · exact iff_of_false (by simp) fun h => absurd h.1.1 (by omega)
  · exact iff_of_false (by simp) fun h => absurd h.1.2 (by omega)
  · have hpositive : 0 < capacity ∧ capacity ≤ maximumQueueCapacity := by omega
    rw [and_iff_right hpositive, Except.ok.injEq, eq_comm]

theorem weighted_eq (id : QueueId) (capacity : Nat) {weight : UInt16}
    (h : weight ≠ 0) :
    weighted id capacity weight = new id capacity (.weighted ⟨weight, h⟩) := by
  rw [weighted, QueuePriority.ofWeight, dif_pos h]
  rfl

end QueueConfig

/-! ## Layouts -/

theorem checkDefinitions_ok_iff {definitions : List QueueConfig}
    {ids result : List QueueId} {total : Nat} :
    checkDefinitions definitions ids total = .ok result ↔
      (definitions.map QueueConfig.id).Nodup ∧
        (∀ definition ∈ definitions, definition.id ∉ ids) ∧
        (definitions = [] ∨ total +
          (definitions.map QueueConfig.capacity).sum ≤
            maximumTotalQueueCapacity) ∧
        result = (definitions.map QueueConfig.id).reverse ++ ids := by
  induction definitions generalizing ids total with
  | nil => simp [checkDefinitions, eq_comm]
  | cons definition definitions ih =>
      have hbound : ∀ capacity : Nat, 2 ^ 64 ≤ capacity →
          maximumTotalQueueCapacity < capacity := by
        intro capacity hcapacity
        unfold maximumTotalQueueCapacity
        omega
      rw [checkDefinitions]
      split_ifs with hmem hlarge htotal
      · refine iff_of_false (by simp) fun h => ?_
        exact h.2.1 definition List.mem_cons_self hmem
      · refine iff_of_false (by simp) fun h => ?_
        have hsum := h.2.2.1.resolve_left (by simp)
        have hmore := hbound _ hlarge
        rw [List.map_cons, List.sum_cons] at hsum
        omega
      · refine iff_of_false (by simp) fun h => ?_
        have hsum := h.2.2.1.resolve_left (by simp)
        rw [List.map_cons, List.sum_cons] at hsum
        omega
      · rw [ih, List.map_cons, List.nodup_cons, List.map_cons, List.sum_cons,
          List.reverse_cons, List.append_assoc, List.singleton_append]
        constructor
        · rintro ⟨hnodup, hfresh, hsum, hresult⟩
          refine ⟨⟨?_, hnodup⟩, ?_, .inr ?_, hresult⟩
          · intro hagain
            obtain ⟨other, hother, heq⟩ := List.mem_map.mp hagain
            exact hfresh other hother (heq ▸ List.mem_cons_self)
          · intro other hother
            rcases List.mem_cons.mp hother with rfl | hother
            · exact hmem
            · exact fun hold =>
                hfresh other hother (List.mem_cons_of_mem _ hold)
          · rcases hsum with rfl | hsum
            · simpa using Nat.le_of_not_lt htotal
            · omega
        · rintro ⟨⟨hfirst, hnodup⟩, hfresh, hsum, hresult⟩
          refine ⟨hnodup, ?_, .inr ?_, hresult⟩
          · intro other hother hold
            rcases List.mem_cons.mp hold with heq | hold
            · exact hfirst (heq ▸ List.mem_map_of_mem hother)
            · exact hfresh other (List.mem_cons_of_mem _ hother) hold
          · have hsum := hsum.resolve_left (by simp)
            omega

/-- A layout passes when its queues are few, told apart and bounded together. -/
theorem validateLayout_ok_iff {definitions : List QueueConfig}
    {default : QueueId} :
    validateLayout definitions default = .ok () ↔
      definitions.length ≤ maximumLinkQueues ∧
        (definitions.map QueueConfig.id).Nodup ∧
        (definitions.map QueueConfig.capacity).sum ≤
          maximumTotalQueueCapacity ∧
        default ∈ definitions.map QueueConfig.id := by
  unfold validateLayout
  split_ifs with hempty hmany
  · rw [List.isEmpty_iff] at hempty
    subst hempty
    exact iff_of_false (by simp) fun h => List.not_mem_nil h.2.2.2
  · exact iff_of_false (by simp) fun h => absurd h.1 (Nat.not_le.mpr hmany)
  · rw [and_iff_right (Nat.le_of_not_lt hmany)]
    cases hcheck : checkDefinitions definitions [] 0 with
    | error error =>
        refine iff_of_false (by simp) ?_
        rintro ⟨hnodup, hsum, -⟩
        have hpasses := checkDefinitions_ok_iff.mpr ⟨hnodup,
          fun _ _ => List.not_mem_nil, .inr (by rwa [Nat.zero_add]), rfl⟩
        rw [hcheck] at hpasses
        contradiction
    | ok ids =>
        obtain ⟨hnodup, -, hsum, hids⟩ := checkDefinitions_ok_iff.mp hcheck
        rw [Nat.zero_add] at hsum
        have htotal : (definitions.map QueueConfig.capacity).sum ≤
            maximumTotalQueueCapacity := by
          refine hsum.resolve_left fun hnil => hempty ?_
          rw [hnil]
          rfl
        rw [and_iff_right hnodup, and_iff_right htotal]
        simp [hids]

/-! ## Configurations -/

theorem max_one_eq_self_iff (count : UInt8) : max count 1 = count ↔ count ≠ 0 :=
  forall_byte (P := fun count => max count 1 = count ↔ count ≠ 0)
    (by decide +kernel) count

theorem max_one_ne_zero (count : UInt8) : max count 1 ≠ 0 :=
  forall_byte (P := fun count => max count 1 ≠ 0) (by decide +kernel) count

def normalizedChecksumPolicy : ChecksumPolicy → ChecksumPolicy
  | .knownGateway delimiterBit (some node) =>
      if node > 63 then .knownGateway delimiterBit none
      else .knownGateway delimiterBit (some node)
  | policy => policy

theorem normalizedChecksumPolicy_valid (policy : ChecksumPolicy) :
    sourceOutOfRange (normalizedChecksumPolicy policy) = false := by
  unfold normalizedChecksumPolicy
  split
  · split_ifs with hnode
    · rfl
    · simpa [sourceOutOfRange] using hnode
  next other hother =>
    unfold sourceOutOfRange
    split
    next delimiterBit node => exact absurd rfl (hother delimiterBit node)
    · rfl

theorem normalizedChecksumPolicy_eq_self_iff (policy : ChecksumPolicy) :
    normalizedChecksumPolicy policy = policy ↔
      sourceOutOfRange policy = false := by
  constructor
  · intro h
    rw [← h]
    exact normalizedChecksumPolicy_valid policy
  · intro h
    unfold normalizedChecksumPolicy
    split
    next delimiterBit node =>
      have hnode : ¬ node > 63 := by simpa [sourceOutOfRange] using h
      rw [if_neg hnode]
    · rfl

namespace LinkConfig

def normalized (config : LinkConfig) : Option LinkConfig := do
  let minimumPreambles := max config.decoder.minimumPreambles 1
  let queueCapacity ← clamp? config.queueCapacity 1 maximumQueueCapacity
  let readBufferSize ←
    clamp? config.readBufferSize 64 maximumLinkReadBuffer
  let bufferCapacity ← clamp? config.decoder.bufferCapacity
    (requiredDecoderCapacity minimumPreambles) maximumLinkDecoderBuffer
  some
    { queueCapacity, readBufferSize
      decoder :=
        { bufferCapacity, minimumPreambles
          checksumPolicy :=
            normalizedChecksumPolicy config.decoder.checksumPolicy } }

theorem validate_ok_iff (config : LinkConfig) :
    config.validate = .ok () ↔
      (0 < config.queueCapacity ∧
        config.queueCapacity ≤ maximumQueueCapacity) ∧
      (0 < config.readBufferSize ∧
        config.readBufferSize ≤ maximumLinkReadBuffer) ∧
      config.decoder.minimumPreambles ≠ 0 ∧
      sourceOutOfRange config.decoder.checksumPolicy = false ∧
      requiredDecoderCapacity config.decoder.minimumPreambles ≤
          config.decoder.bufferCapacity ∧
        config.decoder.bufferCapacity ≤ maximumLinkDecoderBuffer := by
  have hroom : 0 < requiredDecoderCapacity config.decoder.minimumPreambles := by
    unfold requiredDecoderCapacity maxEncodedFrameSize
    omega
  unfold validate
  split_ifs with hqueue hqueueLimit hread hreadLimit hcapacity hpreambles
    hsource hlimit hframe
  · exact iff_of_false (by simp) fun h => by omega
  · exact iff_of_false (by simp) fun h => by omega
  · exact iff_of_false (by simp) fun h => by omega
  · exact iff_of_false (by simp) fun h => by omega
  · exact iff_of_false (by simp) fun h => by omega
  · exact iff_of_false (by simp) fun h => h.2.2.1 hpreambles
  · exact iff_of_false (by simp) fun h => by simp [h.2.2.2.1] at hsource
  · exact iff_of_false (by simp) fun h => by omega
  · exact iff_of_false (by simp) fun h => by omega
  · exact iff_of_true rfl ⟨by omega, by omega, hpreambles,
      by simpa using hsource, by omega, by omega⟩

theorem requiredDecoderCapacity_le (minimumPreambles : UInt8) :
    requiredDecoderCapacity minimumPreambles ≤ maximumLinkDecoderBuffer := by
  have hbyte := minimumPreambles.toNat_lt
  unfold requiredDecoderCapacity maxEncodedFrameSize maximumLinkDecoderBuffer
    maximumDecodeBufferCapacity
  omega

/-- No bound is above the other. -/
theorem normalized_eq (config : LinkConfig) :
    config.normalized = some
      { queueCapacity := max 1 (min maximumQueueCapacity config.queueCapacity)
        readBufferSize :=
          max 64 (min maximumLinkReadBuffer config.readBufferSize)
        decoder :=
          { bufferCapacity := max
              (requiredDecoderCapacity (max config.decoder.minimumPreambles 1))
              (min maximumLinkDecoderBuffer config.decoder.bufferCapacity)
            minimumPreambles := max config.decoder.minimumPreambles 1
            checksumPolicy :=
              normalizedChecksumPolicy config.decoder.checksumPolicy } } := by
  have hqueue : 1 ≤ maximumQueueCapacity := by decide
  have hread : 64 ≤ maximumLinkReadBuffer := by decide
  rw [normalized, clamp?_of_le hqueue, clamp?_of_le hread,
    clamp?_of_le (requiredDecoderCapacity_le _)]
  rfl

theorem validate_of_normalized {config normal : LinkConfig}
    (h : config.normalized = some normal) : normal.validate = .ok () := by
  rw [normalized_eq] at h
  injection h with h
  subst h
  have hroom := requiredDecoderCapacity_le (max config.decoder.minimumPreambles 1)
  have hqueue : 0 < maximumQueueCapacity := by decide
  have hread : 64 ≤ maximumLinkReadBuffer := by decide
  rw [validate_ok_iff]
  dsimp only
  refine ⟨by omega, by omega, max_one_ne_zero _,
    normalizedChecksumPolicy_valid _, by omega, by omega⟩

/-- It mends nothing else than what is refused, and small read buffers. -/
theorem normalized_eq_self_iff (config : LinkConfig) :
    config.normalized = some config ↔
      config.validate = .ok () ∧ 64 ≤ config.readBufferSize := by
  constructor
  · intro h
    refine ⟨validate_of_normalized h, ?_⟩
    rw [normalized_eq] at h
    injection h with h
    have hread := congrArg LinkConfig.readBufferSize h
    dsimp only at hread
    omega
  · rintro ⟨hvalid, hsize⟩
    obtain ⟨hqueue, hread, hpreambles, hsource, hcapacity, hlimit⟩ :=
      config.validate_ok_iff.mp hvalid
    have hsame := (max_one_eq_self_iff _).mpr hpreambles
    have hpolicy := (normalizedChecksumPolicy_eq_self_iff _).mpr hsource
    rw [normalized_eq, hsame, hpolicy, max_eq_right (by omega),
      max_eq_right (by omega), max_eq_right (by omega), min_eq_right hqueue.2,
      min_eq_right hread.2, min_eq_right hlimit]

end LinkConfig

end HartLink.Service

/-! ## Decoders -/

namespace HartLink.Wire

open HartLink.Service

inductive DecodeLimitsError where
  | emptyBuffer
  | bufferLimit (capacity : Nat)
  | noPreambles
  | checksumSourceNode (node : UInt8)
  deriving DecidableEq, Repr

def DecodeLimits.validate (limits : DecodeLimits) :
    Except DecodeLimitsError Unit :=
  if limits.bufferCapacity = 0 then .error .emptyBuffer
  else if limits.bufferCapacity > maximumDecodeBufferCapacity then
    .error (.bufferLimit limits.bufferCapacity)
  else if limits.minimumPreambles = 0 then .error .noPreambles
  else
    match limits.checksumPolicy with
    | .knownGateway _ (some node) =>
        if node > 63 then .error (.checksumSourceNode node) else .ok ()
    | _ => .ok ()

def FrameDecoder.tryNew (limits : DecodeLimits) :
    Except DecodeLimitsError FrameDecoder := do
  limits.validate
  .ok (.new limits)

theorem DecodeLimits.validate_ok_iff (limits : DecodeLimits) :
    limits.validate = .ok () ↔
      (FrameDecoder.new limits).limits = limits ∧
        sourceOutOfRange limits.checksumPolicy = false := by
  obtain ⟨bufferCapacity, minimumPreambles, policy⟩ := limits
  have hlimits : (FrameDecoder.new
      ⟨bufferCapacity, minimumPreambles, policy⟩).limits =
        ⟨max 1 (min bufferCapacity maximumDecodeBufferCapacity),
          max minimumPreambles 1, policy⟩ := rfl
  rw [hlimits, DecodeLimits.mk.injEq, max_one_eq_self_iff, and_iff_left rfl,
    validate]
  dsimp only
  have hroom : 1 ≤ maximumDecodeBufferCapacity := by decide
  split_ifs with hempty hlarge hpreambles
  · exact iff_of_false (by simp) fun h => by omega
  · exact iff_of_false (by simp) fun h => by omega
  · exact iff_of_false (by simp) fun h => h.1.2 hpreambles
  · have hkept : max 1 (min bufferCapacity maximumDecodeBufferCapacity) =
        bufferCapacity := by omega
    rw [and_iff_right ⟨hkept, hpreambles⟩]
    unfold sourceOutOfRange
    split
    · split_ifs <;> simp_all
    · simp

theorem FrameDecoder.tryNew_ok {limits : DecodeLimits}
    (h : limits.validate = .ok ()) : tryNew limits = .ok (.new limits) := by
  rw [tryNew, h]
  rfl

end HartLink.Wire

namespace HartLink.Service

open HartLink.Wire

theorem LinkConfig.decoder_valid {config : LinkConfig}
    (h : config.validate = .ok ()) : config.decoder.validate = .ok () := by
  obtain ⟨-, -, -, hsource, -⟩ := config.validate_ok_iff.mp h
  exact config.decoder.validate_ok_iff.mpr
    ⟨(LinkConfig.validated_of_validate h).limits, hsource⟩

/-! ## Links -/

def maximumLinkEventCapacity : Nat := 1048576

def defaultLateResponseGuard : Nat := 25000000

def maximumLateResponseGuard : Nat := 60000000000

inductive LinkBuildError where
  | config (error : LinkConfigError)
  | queues (error : QueueConfigError)
  | retryPolicy (error : RetryPolicyError)
  | eventCapacity
  | eventCapacityLimit (capacity : Nat)
  | lateResponseGuard
  deriving DecidableEq, Repr

/-- The options of a link, with queues that are told apart. -/
structure LinkRuntimeOptions where
  eventCapacity : Nat := 512
  maximumCoalesced : Nat := 64
  queueLayout : List QueueConfig
  defaultQueue : QueueId := ⟨0⟩
  defaultRetry : RetryPolicy := .default
  lateResponseGuard : Nat := defaultLateResponseGuard
  client : LinkClient := ⟨.allowAll, .preserveRequested⟩
  nodup : (queueLayout.map QueueConfig.id).Nodup

structure BuiltLink where
  client : LinkClient
  defaultQueue : QueueId
  defaultRetry : RetryPolicy
  eventCapacity : Nat
  maximumCoalesced : Nat
  lateResponseGuard : Nat
  runner : LinkState

def BuiltLink.setup (built : BuiltLink) (horizon : Nat) : LinkSetup :=
  ⟨built.client, horizon, built.maximumCoalesced, built.lateResponseGuard⟩

/-- `broadcast::channel` panics without room, or with more than it can count. -/
def broadcastCapacity (capacity : Nat) : Option Nat :=
  if capacity = 0 ∨ capacity > (2 ^ 64 - 1) / 2 then none else some capacity

def buildLink (config : LinkConfig) (options : LinkRuntimeOptions)
    (burstHub : Bool) : Option BuiltLink := do
  let eventCapacity ← broadcastCapacity options.eventCapacity
  some
    { client := options.client
      defaultQueue := options.defaultQueue
      defaultRetry := options.defaultRetry
      eventCapacity
      maximumCoalesced := options.maximumCoalesced
      lateResponseGuard := options.lateResponseGuard
      runner := .initial options.queueLayout options.nodup config.decoder
        config.readBufferSize burstHub }

def expectQueue (capacity : Nat) : Option QueueConfig :=
  match QueueConfig.weighted ⟨0⟩ capacity 1 with
  | .ok queue => some queue
  | .error _ => none

def defaultRuntimeOptions (config : LinkConfig) :
    Option LinkRuntimeOptions := do
  let queue ← expectQueue config.queueCapacity
  some { queueLayout := [queue], nodup := List.nodup_singleton _ }

def createLink (config : LinkConfig) : Option BuiltLink := do
  let config ← config.normalized
  let options ← defaultRuntimeOptions config
  buildLink config options false

def tryCreateLink (config : LinkConfig) :
    Option (Except LinkConfigError BuiltLink) :=
  match config.validate with
  | .error error => some (.error error)
  | .ok () => do
      let options ← defaultRuntimeOptions config
      let built ← buildLink config options false
      some (.ok built)

structure LinkBuilder where
  config : LinkConfig := LinkConfig.defaultConfig
  eventCapacity : Nat := 512
  maximumCoalesced : Nat := 64
  queueLayout : Option (List QueueConfig) := none
  defaultQueue : QueueId := ⟨0⟩
  defaultRetry : RetryPolicy := .default
  burstHub : Bool := false
  lateResponseGuard : Nat := defaultLateResponseGuard
  client : LinkClient := ⟨.allowAll, .preserveRequested⟩

namespace LinkBuilder

def check (builder : LinkBuilder) (horizon now : Nat) :
    Except LinkBuildError Unit := do
  builder.config.validate.mapError .config
  (builder.defaultRetry.validateRuntime horizon now).mapError .retryPolicy
  if builder.eventCapacity = 0 then .error .eventCapacity
  else if builder.eventCapacity > maximumLinkEventCapacity then
    .error (.eventCapacityLimit builder.eventCapacity)
  else if builder.lateResponseGuard > maximumLateResponseGuard then
    .error .lateResponseGuard
  else .ok ()

def layout (builder : LinkBuilder) : Option (List QueueConfig) :=
  match builder.queueLayout with
  | some layout => some layout
  | none => do
      let queue ← expectQueue builder.config.queueCapacity
      some [queue]

def build (builder : LinkBuilder) (horizon now : Nat) :
    Option (Except LinkBuildError BuiltLink) :=
  match builder.check horizon now with
  | .error error => some (.error error)
  | .ok () => do
      let queueLayout ← builder.layout
      match h : validateLayout queueLayout builder.defaultQueue with
      | .error error => some (.error (.queues error))
      | .ok () =>
          let built ← buildLink builder.config
            { eventCapacity := builder.eventCapacity
              maximumCoalesced := builder.maximumCoalesced
              queueLayout
              defaultQueue := builder.defaultQueue
              defaultRetry := builder.defaultRetry
              lateResponseGuard := builder.lateResponseGuard
              client := builder.client
              nodup := nodup_of_validateLayout h } builder.burstHub
          some (.ok built)

end LinkBuilder

/-! ## What is made -/

def plainLayout (capacity : Nat) : List QueueConfig :=
  [⟨⟨0⟩, capacity, .default⟩]

/--
The link stands where the runs of a link with this configuration and this layout
begin, and both have been checked.
-/
structure BuiltLink.Made (built : BuiltLink) (config : LinkConfig)
    (layout : List QueueConfig) : Prop where
  valid : config.validate = .ok ()
  build : ∃ build : LinkBuild, built.runner = build.initial ∧
    build.layout = layout ∧ build.default = built.defaultQueue ∧
    build.limits = config.decoder ∧
    build.readBufferSize = config.readBufferSize
  decoder : FrameDecoder.tryNew config.decoder = .ok built.runner.port.decoder
  eventCapacity : 0 < built.eventCapacity ∧
    built.eventCapacity ≤ maximumLinkEventCapacity
  lateResponseGuard : built.lateResponseGuard ≤ maximumLateResponseGuard

theorem expectQueue_eq {capacity : Nat} (hpositive : 0 < capacity)
    (hlimit : capacity ≤ maximumQueueCapacity) :
    expectQueue capacity = some ⟨⟨0⟩, capacity, .default⟩ := by
  have hqueue : QueueConfig.weighted ⟨0⟩ capacity 1 =
      .ok ⟨⟨0⟩, capacity, .default⟩ := by
    rw [QueueConfig.weighted_eq _ _ (by decide)]
    exact QueueConfig.new_ok_iff.mpr ⟨⟨hpositive, hlimit⟩, rfl⟩
  rw [expectQueue, hqueue]

theorem validateLayout_plainLayout_iff {capacity : Nat}
    (hlimit : capacity ≤ maximumQueueCapacity) {queue : QueueId} :
    validateLayout (plainLayout capacity) queue = .ok () ↔ queue = ⟨0⟩ := by
  rw [validateLayout_ok_iff]
  constructor
  · rintro ⟨-, -, -, hmem⟩
    simpa [plainLayout] using hmem
  · rintro rfl
    refine ⟨Nat.le_of_lt_succ (by simp [plainLayout, maximumLinkQueues]),
      List.nodup_singleton _, ?_, List.mem_singleton_self _⟩
    simpa [plainLayout, maximumTotalQueueCapacity, maximumQueueCapacity]
      using hlimit

theorem broadcastCapacity_eq {capacity : Nat} (hpositive : 0 < capacity)
    (hlimit : capacity ≤ maximumLinkEventCapacity) :
    broadcastCapacity capacity = some capacity := by
  unfold maximumLinkEventCapacity at hlimit
  rw [broadcastCapacity, if_neg (by omega)]

section Links

variable {config : LinkConfig} {options : LinkRuntimeOptions}

theorem buildLink_made (hconfig : config.validate = .ok ())
    (hlayout : validateLayout options.queueLayout options.defaultQueue =
      .ok ())
    (hevents : 0 < options.eventCapacity ∧
      options.eventCapacity ≤ maximumLinkEventCapacity)
    (hguard : options.lateResponseGuard ≤ maximumLateResponseGuard)
    (burstHub : Bool) :
    ∃ built, buildLink config options burstHub = some built ∧
      built.Made config options.queueLayout := by
  refine ⟨_, by rw [buildLink, broadcastCapacity_eq hevents.1 hevents.2]; rfl,
    hconfig, ⟨⟨options.queueLayout, options.defaultQueue, config.decoder,
      config.readBufferSize, burstHub, hlayout⟩, rfl, rfl, rfl, rfl, rfl⟩,
    FrameDecoder.tryNew_ok (LinkConfig.decoder_valid hconfig), hevents, hguard⟩

theorem plainLink_made (hconfig : config.validate = .ok ()) :
    ∃ options built, defaultRuntimeOptions config = some options ∧
      buildLink config options false = some built ∧
      built.Made config (plainLayout config.queueCapacity) := by
  obtain ⟨⟨hpositive, hlimit⟩, -⟩ := config.validate_ok_iff.mp hconfig
  have hlayout := (validateLayout_plainLayout_iff hlimit).mpr
    (rfl : (⟨0⟩ : QueueId) = ⟨0⟩)
  have hevents : 0 < 512 ∧ 512 ≤ maximumLinkEventCapacity := by decide
  have hguard : defaultLateResponseGuard ≤ maximumLateResponseGuard := by decide
  have hoptions : defaultRuntimeOptions config =
      some { queueLayout := plainLayout config.queueCapacity
             nodup := List.nodup_singleton _ } := by
    rw [defaultRuntimeOptions, expectQueue_eq hpositive hlimit]
    rfl
  obtain ⟨built, hbuilt, hmade⟩ := @buildLink_made config
    { queueLayout := plainLayout config.queueCapacity
      nodup := List.nodup_singleton _ } hconfig hlayout hevents hguard false
  exact ⟨_, built, hoptions, hbuilt, hmade⟩

theorem createLink_made (config : LinkConfig) :
    ∃ normal built, config.normalized = some normal ∧
      createLink config = some built ∧
      built.Made normal (plainLayout normal.queueCapacity) := by
  obtain ⟨normal, hnormal⟩ : ∃ normal, config.normalized = some normal :=
    ⟨_, config.normalized_eq⟩
  obtain ⟨options, built, hoptions, hbuilt, hmade⟩ :=
    plainLink_made (LinkConfig.validate_of_normalized hnormal)
  refine ⟨normal, built, hnormal, ?_, hmade⟩
  simp only [createLink, hnormal, hoptions, hbuilt, Option.bind_eq_bind,
    Option.bind_some]

theorem tryCreateLink_of_valid (hconfig : config.validate = .ok ()) :
    ∃ built, tryCreateLink config = some (.ok built) ∧
      built.Made config (plainLayout config.queueCapacity) := by
  obtain ⟨options, built, hoptions, hbuilt, hmade⟩ := plainLink_made hconfig
  refine ⟨built, ?_, hmade⟩
  simp only [tryCreateLink, hconfig, hoptions, hbuilt, Option.bind_eq_bind,
    Option.bind_some]

end Links

/-- `create_link` mends what `try_create_link` refuses, and small read buffers. -/
theorem tryCreateLink_eq_createLink_iff (config : LinkConfig) :
    tryCreateLink config = (createLink config).map .ok ↔
      config.validate = .ok () ∧ 64 ≤ config.readBufferSize := by
  constructor
  · intro h
    obtain ⟨normal, built, hnormal, hcreated, hmade⟩ := createLink_made config
    rw [hcreated, Option.map_some] at h
    cases hvalid : config.validate with
    | error error =>
        rw [tryCreateLink, hvalid] at h
        injection h with h
        contradiction
    | ok value =>
        obtain ⟨tried, htried, hmade'⟩ := tryCreateLink_of_valid hvalid
        rw [h] at htried
        injection htried with htried
        injection htried with htried
        subst htried
        obtain ⟨build, hrunner, -, -, -, hsize⟩ := hmade.build
        obtain ⟨build', hrunner', -, -, -, hsize'⟩ := hmade'.build
        have hread : normal.readBufferSize = config.readBufferSize := by
          rw [← hsize, ← hsize']
          rw [hrunner] at hrunner'
          exact congrArg (fun state => state.port.readBufferSize) hrunner'
        rw [LinkConfig.normalized_eq] at hnormal
        injection hnormal with hnormal
        subst hnormal
        refine ⟨rfl, ?_⟩
        rw [← hread]
        exact le_max_left _ _
  · rintro ⟨hvalid, hsize⟩
    have hnormal := config.normalized_eq_self_iff.mpr ⟨hvalid, hsize⟩
    obtain ⟨options, built, hoptions, hbuilt, -⟩ := plainLink_made hvalid
    simp only [createLink, tryCreateLink, hnormal, hvalid, hoptions, hbuilt,
      Option.bind_eq_bind, Option.bind_some, Option.map_some]

namespace LinkBuilder

def queues (builder : LinkBuilder) : List QueueConfig :=
  builder.queueLayout.getD (plainLayout builder.config.queueCapacity)

structure Passes (builder : LinkBuilder) (horizon now : Nat) : Prop where
  config : builder.config.validate = .ok ()
  defaultRetry : builder.defaultRetry.validateRuntime horizon now = .ok ()
  eventCapacity : 0 < builder.eventCapacity ∧
    builder.eventCapacity ≤ maximumLinkEventCapacity
  lateResponseGuard : builder.lateResponseGuard ≤ maximumLateResponseGuard
  layout : validateLayout builder.queues builder.defaultQueue = .ok ()

section Builds

variable {builder : LinkBuilder} {horizon now : Nat}

theorem check_ok_iff :
    builder.check horizon now = .ok () ↔
      builder.config.validate = .ok () ∧
        builder.defaultRetry.validateRuntime horizon now = .ok () ∧
        (0 < builder.eventCapacity ∧
          builder.eventCapacity ≤ maximumLinkEventCapacity) ∧
        builder.lateResponseGuard ≤ maximumLateResponseGuard := by
  unfold check
  cases hconfig : builder.config.validate with
  | error error => simp [Except.mapError, bind, Except.bind]
  | ok value =>
      cases hretry : builder.defaultRetry.validateRuntime horizon now with
      | error error => simp [Except.mapError, bind, Except.bind]
      | ok value =>
          simp only [Except.mapError, bind, Except.bind, true_and]
          split_ifs <;> simp <;> omega

theorem layout_eq (h : builder.config.validate = .ok ()) :
    builder.layout = some builder.queues := by
  obtain ⟨⟨hpositive, hlimit⟩, -⟩ := builder.config.validate_ok_iff.mp h
  unfold layout queues
  cases builder.queueLayout with
  | some layout => rfl
  | none =>
      rw [expectQueue_eq hpositive hlimit]
      rfl

end Builds

/-- The builder as it comes passes, with a day left on the clock. -/
theorem passes_default {horizon now : Nat}
    (h : now + maximumRetryDuration ≤ horizon) :
    ({} : LinkBuilder).Passes horizon now := by
  have hretry : RetryPolicy.default.Executable :=
    (RetryPolicy.executable_iff _).mpr (by decide)
  exact ⟨by decide +kernel, hretry horizon now h, by decide, by decide,
    (validateLayout_plainLayout_iff (by decide)).mpr rfl⟩

end LinkBuilder

/-- A call returns, with a link exactly when everything passes. -/
structure Settles {Error : Type} (outcome : Option (Except Error BuiltLink))
    (passes : Prop) (config : LinkConfig) (layout : List QueueConfig) :
    Prop where
  returns : outcome.isSome
  accepts : (∃ built, outcome = some (.ok built)) ↔ passes
  made : ∀ built, outcome = some (.ok built) → built.Made config layout

theorem settles_of_made {Error : Type}
    {outcome : Option (Except Error BuiltLink)} {passes : Prop}
    {config : LinkConfig} {layout : List QueueConfig} {built : BuiltLink}
    (houtcome : outcome = some (.ok built)) (hpasses : passes)
    (hmade : built.Made config layout) :
    Settles outcome passes config layout := by
  refine ⟨by rw [houtcome]; rfl, iff_of_true ⟨built, houtcome⟩ hpasses, ?_⟩
  intro other hother
  rw [houtcome] at hother
  injection hother with hother
  injection hother with hother
  exact hother ▸ hmade

theorem settles_of_error {Error : Type}
    {outcome : Option (Except Error BuiltLink)} {passes : Prop}
    {config : LinkConfig} {layout : List QueueConfig} {error : Error}
    (houtcome : outcome = some (.error error)) (hfails : ¬ passes) :
    Settles outcome passes config layout := by
  have hnone : ∀ built, outcome ≠ some (.ok built) := by
    intro built hbuilt
    rw [houtcome] at hbuilt
    injection hbuilt with hbuilt
    contradiction
  refine ⟨by rw [houtcome]; rfl, iff_of_false ?_ hfails, ?_⟩
  · rintro ⟨built, hbuilt⟩
    exact hnone built hbuilt
  · intro built hbuilt
    exact absurd hbuilt (hnone built)

theorem settles_tryCreateLink (config : LinkConfig) :
    Settles (tryCreateLink config) (config.validate = .ok ()) config
      (plainLayout config.queueCapacity) := by
  cases hvalid : config.validate with
  | error error =>
      refine @settles_of_error _ _ _ _ _ error ?_ (by simp)
      rw [tryCreateLink, hvalid]
  | ok value =>
      obtain ⟨built, hbuilt, hmade⟩ := tryCreateLink_of_valid hvalid
      exact settles_of_made hbuilt rfl hmade

theorem settles_build (builder : LinkBuilder) (horizon now : Nat) :
    Settles (builder.build horizon now) (builder.Passes horizon now)
      builder.config builder.queues := by
  cases hcheck : builder.check horizon now with
  | error error =>
      refine @settles_of_error _ _ _ _ _ error ?_ fun h => ?_
      · rw [LinkBuilder.build, hcheck]
      · rw [LinkBuilder.check_ok_iff.mpr ⟨h.config, h.defaultRetry,
          h.eventCapacity, h.lateResponseGuard⟩] at hcheck
        contradiction
  | ok value =>
      obtain ⟨hconfig, hretry, hevents, hguard⟩ :=
        LinkBuilder.check_ok_iff.mp hcheck
      unfold LinkBuilder.build
      rw [hcheck, LinkBuilder.layout_eq hconfig]
      simp only [Option.bind_eq_bind, Option.bind_some]
      split
      next error herror =>
        refine settles_of_error rfl fun h => ?_
        rw [h.layout] at herror
        contradiction
      next hlayout =>
        obtain ⟨built, hbuilt, hmade⟩ := @buildLink_made builder.config
          { eventCapacity := builder.eventCapacity
            maximumCoalesced := builder.maximumCoalesced
            queueLayout := builder.queues
            defaultQueue := builder.defaultQueue
            defaultRetry := builder.defaultRetry
            lateResponseGuard := builder.lateResponseGuard
            client := builder.client
            nodup := nodup_of_validateLayout hlayout } hconfig hlayout hevents
          hguard builder.burstHub
        rw [hbuilt, Option.bind_some]
        exact settles_of_made rfl
          ⟨hconfig, hretry, hevents, hguard, hlayout⟩ hmade

/--
Every way to a link ends, with a link or an error.  `create_link` always makes one,
`try_create_link` exactly for a valid configuration, and the builder exactly when
everything that it is given is valid.  The links start where the runs of a link
start, with limits and queues that have been checked.
-/
theorem links_are_made (horizon now : Nat) :
    (∀ config : LinkConfig, ∃ normal built,
        config.normalized = some normal ∧ createLink config = some built ∧
        built.Made normal (plainLayout normal.queueCapacity)) ∧
      (∀ config : LinkConfig,
        Settles (tryCreateLink config) (config.validate = .ok ()) config
          (plainLayout config.queueCapacity)) ∧
      (∀ config : LinkConfig,
        tryCreateLink config = (createLink config).map .ok ↔
          config.validate = .ok () ∧ 64 ≤ config.readBufferSize) ∧
      ∀ builder : LinkBuilder,
        Settles (builder.build horizon now) (builder.Passes horizon now)
          builder.config builder.queues :=
  ⟨createLink_made, settles_tryCreateLink, tryCreateLink_eq_createLink_iff,
    fun builder => settles_build builder horizon now⟩

theorem BuiltLink.Made.reaches {built : BuiltLink} {config : LinkConfig}
    {layout : List QueueConfig} (h : built.Made config layout) {horizon : Nat}
    {actions : List LinkAction} {state : LinkState}
    (hrun : built.runner.run (built.setup horizon) actions = some state) :
    ∃ build : LinkBuild, build.Reaches (built.setup horizon) state ∧
      build.layout = layout := by
  obtain ⟨build, hrunner, hlayout, -⟩ := h.build
  rw [hrunner] at hrun
  exact ⟨build, ⟨actions, hrun⟩, hlayout⟩

end HartLink.Service

import HartLink.Ip.Interruption
import HartLink.Service.Transcript

/-!
# A link over HART-IP

The adapter that lets the runner of a link use a packet session as its channel.
A send is a whole exchange with the server; what the server published and its
answer are kept for the receives that follow.
-/

namespace HartLink.Ip

open HartLink.Foundation
open HartLink.Operation
open HartLink.Service
open HartLink.Service.LinkState (pairBuild startIn)

/-! ## The adapter -/

def IpError.hexDigit (value : Nat) : Char :=
  Char.ofNat (if value < 10 then 48 + value else 87 + value)

def IpError.hex (value : UInt8) : String :=
  String.ofList [hexDigit (value.toNat / 16), hexDigit (value.toNat % 16)]

/-- The text of an error; that of the stream's own errors is never asked for. -/
def IpError.text : IpError → String
  | .io _ => "I/O error"
  | .truncated => "HART-IP packet is truncated"
  | .messageType value => s!"unknown HART-IP message type {value.toNat}"
  | .reservedMessageBits bits =>
      "reserved HART-IP message-type bits are nonzero: 0x" ++ hex bits
  | .length bodyLength =>
      s!"body length {bodyLength} does not fit in a packet"
  | .packetLength declared actual =>
      s!"packet declared length {declared}, but {actual} bytes were received"
  | .bodyLimit bodyLength =>
      s!"{bodyLength}-byte HART-IP body exceeds the configured limit"
  | .sequence => "too many HART-IP responses did not match the expected " ++
      "sequence and message ID"
  | .protocolVersion expected actual =>
      s!"expected HART-IP protocol version {expected.toNat}, received " ++
        s!"{actual.toNat}"
  | .remoteStatus status => s!"HART-IP server returned status {status.toNat}"
  | .unexpectedMessageType received =>
      "HART-IP server returned unexpected message type " ++ received.name
  | .alreadyOpen => "HART-IP session is already open"
  | .notOpen => "HART-IP session is not open"
  | .inactivityTimeout =>
      "HART-IP inactivity timeout does not fit in milliseconds"
  | .timeout operation => s!"HART-IP {operation} timeout expired"
  | .streamUnusable => "HART-IP stream must be reconnected after an " ++
      "indeterminate I/O result"

def ipChannelError : IpError → ChannelError
  | .io .timedOut => .io .timedOut
  | .io _ => .io .other
  | error => .protocol error.text

structure IpPacketChannel where
  session : IpSession
  messageId : UInt8
  pending : Bytes := []
  deriving DecidableEq, Repr

namespace IpPacketChannel

def takeAllPublished : Nat → IpSession → Bytes → IpSession × Bytes
  | 0, session, pending => (session, pending)
  | bound + 1, session, pending =>
      match session.takePublished with
      | (none, session) => (session, pending)
      | (some packet, session) =>
          takeAllPublished bound session (pending ++ packet.body)

/--
A send under what happens at the awaits of its exchange, and its result, if the
caller waits for it.
-/
def send (channel : IpPacketChannel) (awaits : List Await) (bytes : Bytes) :
    IpPacketChannel × Option (Except ChannelError Unit) :=
  if channel.pending ≠ [] then
    (channel, some (.error (.configuration
      "previous HART-IP response bytes were not drained")))
  else
    match (channel.session.under awaits).request channel.messageId bytes with
    | (session, .interrupted _) =>
        ({ channel with session := session.under [] }, none)
    | (session, .returned (.error error)) =>
        ({ channel with session := session.under [] },
          some (.error (ipChannelError error)))
    | (session, .returned (.ok packet)) =>
        let (session, pending) := takeAllPublished session.published.length
          session channel.pending
        ({ channel with
          session := session.under [], pending := pending ++ packet.body },
          some (.ok ()))

/-- A receive never waits. -/
def receive (channel : IpPacketChannel) (limit : Nat) :
    IpPacketChannel × Received :=
  if limit = 0 then
    (channel, .error (.configuration
      "HART-IP receive buffer cannot be empty"))
  else if channel.pending = [] then (channel, .error .closed)
  else
    let count := min limit channel.pending.length
    ({ channel with pending := channel.pending.drop count },
      .read (channel.pending.take count))

/-! ## The adapter behind a link -/

/-- What the runner sees of a send that it waits for until a deadline. -/
def Returns (deadline : Nat) (result : Sent) :
    Option (Except ChannelError Unit) → Prop
  | none => deadline < result.instant
  | some (.ok _) => result.instant ≤ deadline ∧ result.error = none
  | some (.error error) =>
      result.instant ≤ deadline ∧ result.error = some error

instance (deadline : Nat) (result : Sent) :
    DecidablePred (Returns deadline result)
  | none => inferInstanceAs (Decidable (_ < _))
  | some (.ok _) => inferInstanceAs (Decidable (_ ∧ _))
  | some (.error _) => inferInstanceAs (Decidable (_ ∧ _))

/--
The adapter after a call, if it returns what the transcript says; the awaits of
the sends to come are given in order.
-/
def accept (channel : IpPacketChannel) (plans : List (List Await)) :
    ChannelEntry → Option (IpPacketChannel × List (List Await))
  | .sent bytes deadline result =>
      if Returns deadline result (channel.send (plans.headD []) bytes).2 then
        some ((channel.send (plans.headD []) bytes).1, plans.tail)
      else none
  | .received limit result =>
      if (channel.receive limit).2 = result then
        some ((channel.receive limit).1, plans)
      else none
  | .expired => none

def replay (channel : IpPacketChannel) (plans : List (List Await)) :
    List ChannelEntry → Option IpPacketChannel
  | [] => some channel
  | entry :: entries =>
      match channel.accept plans entry with
      | none => none
      | some (next, plans) => next.replay plans entries

/--
A receive finds bytes of an earlier answer.  A send finds none, and the server
answers it in time with a response of status zero.
-/
def Suits (channel : IpPacketChannel) (plans : List (List Await)) :
    ChannelEntry → Prop
  | .sent bytes _ _ => channel.pending = [] ∧
      ∃ packet, ((channel.session.under (plans.headD [])).request
        channel.messageId bytes).2 = .returned (.ok packet)
  | .received limit _ => 0 < limit ∧ channel.pending ≠ []
  | .expired => True

def SuitsAll (channel : IpPacketChannel) (plans : List (List Await)) :
    List ChannelEntry → Prop
  | [] => True
  | entry :: entries =>
      channel.Suits plans entry ∧
        ∀ next rest, channel.accept plans entry = some (next, rest) →
          next.SuitsAll rest entries

theorem returns_intact_iff {deadline : Nat} {result : Sent}
    {outcome : Option (Except ChannelError Unit)}
    (h : Returns deadline result outcome) :
    result.intact deadline = true ↔ outcome = some (.ok ()) := by
  unfold Sent.intact
  rw [decide_eq_true_iff]
  rcases outcome with _ | error | value
  · exact iff_of_false (fun hintact => Nat.not_le.mpr h hintact.1) nofun
  · refine iff_of_false (fun hintact => ?_) nofun
    rw [h.2] at hintact
    exact absurd hintact.2 nofun
  · exact iff_of_true h rfl

theorem send_ok_iff (channel : IpPacketChannel) (awaits : List Await)
    (bytes : Bytes) :
    (channel.send awaits bytes).2 = some (.ok ()) ↔ channel.pending = [] ∧
      ∃ packet, ((channel.session.under awaits).request channel.messageId
        bytes).2 = .returned (.ok packet) := by
  unfold send
  by_cases hpending : channel.pending = []
  · rw [if_neg (not_not.mpr hpending)]
    rcases (channel.session.under awaits).request channel.messageId bytes with
      ⟨session, ⟨error | packet⟩ | interruption⟩
    · simp
    · simp [hpending]
    · simp
  · rw [if_pos hpending]
    simp [hpending]

theorem receive_intact_iff (channel : IpPacketChannel) (limit : Nat) :
    (channel.receive limit).2.intact limit = true ↔
      0 < limit ∧ channel.pending ≠ [] := by
  unfold receive
  by_cases hlimit : limit = 0
  · rw [if_pos hlimit]
    exact iff_of_false nofun fun h => absurd hlimit (by omega)
  rw [if_neg hlimit]
  by_cases hpending : channel.pending = []
  · rw [if_pos hpending]
    exact iff_of_false nofun fun h => h.2 hpending
  · have hlength := List.length_pos_iff.mpr hpending
    rw [if_neg hpending]
    refine iff_of_true ?_ ⟨by omega, hpending⟩
    simp only [Received.intact, List.length_take, decide_eq_true_eq]
    omega

theorem intact_iff_suits {channel : IpPacketChannel}
    {plans : List (List Await)} {entry : ChannelEntry}
    {next : IpPacketChannel × List (List Await)}
    (h : channel.accept plans entry = some next) :
    entry.call.intact = true ↔ channel.Suits plans entry := by
  cases entry with
  | sent bytes deadline result =>
      simp only [accept] at h
      split_ifs at h with hreturns
      exact (returns_intact_iff hreturns).trans (channel.send_ok_iff _ bytes)
  | received limit result =>
      simp only [accept] at h
      split_ifs at h with hresult
      subst hresult
      exact channel.receive_intact_iff limit
  | expired => contradiction

theorem intact_iff_suitsAll {channel next : IpPacketChannel}
    {plans : List (List Await)} {entries : List ChannelEntry}
    (h : channel.replay plans entries = some next) :
    (∀ entry ∈ entries, entry.call.intact = true) ↔
      channel.SuitsAll plans entries := by
  induction entries generalizing channel plans with
  | nil => simp [SuitsAll]
  | cons entry entries ih =>
      unfold replay at h
      split at h
      · contradiction
      next after rest haccept =>
        rw [List.forall_mem_cons, SuitsAll, intact_iff_suits haccept, ih h]
        refine and_congr_right' ?_
        constructor
        · intro hsuits other more hother
          rw [haccept] at hother
          injection hother with hother
          injection hother with hchannel hplans
          exact hchannel ▸ hplans ▸ hsuits
        · intro hall
          exact hall after rest haccept

end IpPacketChannel

/-! ## The link as a system -/

/-- A link whose channel is the adapter. -/
structure IpLink where
  link : LinkState
  channel : IpPacketChannel

namespace IpLink

/--
A step of the link in which the channel returns what the adapter returns.  With
the action come the awaits of the sends in it.
-/
def step (setup : LinkSetup) (state : IpLink)
    (action : LinkAction × List (List Await)) : Option IpLink :=
  match state.link.step setup action.1 with
  | none => none
  | some link =>
      match state.channel.replay action.2
          (state.link.transcript setup action.1) with
      | none => none
      | some channel => some ⟨link, channel⟩

/-- While there are clients the runner serves them on a usable channel. -/
def Serving (state : IpLink) : Prop :=
  state.link.clientsAlive = true →
    state.link.port.channelUsable = true ∧ state.link.phase.leaves = false

/-- While there are clients every call of the channel suits the adapter. -/
def Suits (setup : LinkSetup) (state : IpLink)
    (action : LinkAction × List (List Await)) : Prop :=
  state.link.clientsAlive = true → state.channel.SuitsAll action.2
    (state.link.transcript setup action.1)

section Steps

variable {setup : LinkSetup} {build : LinkBuild} {state next : IpLink}
  {action : LinkAction × List (List Await)}

theorem step_cases (h : state.step setup action = some next) :
    state.link.step setup action.1 = some next.link ∧
      state.channel.replay action.2
        (state.link.transcript setup action.1) = some next.channel := by
  unfold step at h
  split at h
  · contradiction
  next link hlink =>
    split at h
    · contradiction
    next channel hchannel =>
      injection h with h
      subst h
      exact ⟨hlink, hchannel⟩

/-- The calls of a step are intact exactly when they suit the adapter. -/
theorem intact_iff (h : state.step setup action = some next) :
    (∀ call ∈ state.link.calls setup action.1, call.intact = true) ↔
      state.channel.SuitsAll action.2
        (state.link.transcript setup action.1) := by
  rw [← IpPacketChannel.intact_iff_suitsAll (step_cases h).2,
    ← LinkState.call_transcript, List.forall_mem_map]

structure InService (setup : LinkSetup) (build : LinkBuild)
    (state : LinkState) : Prop where
  reached : build.Reaches setup state
  loop : state.clientsAlive = true →
    state.LeavesEmpty ∧ state.port.channelUsable = true

theorem InService.serving {state : IpLink}
    (h : InService setup build state.link) : state.Serving := by
  intro halive
  obtain ⟨hloop, husable⟩ := h.loop halive
  refine ⟨husable, ?_⟩
  by_contra hleaves
  rw [Bool.not_eq_false] at hleaves
  rw [hloop.gone hleaves] at halive
  contradiction

theorem keepsChannel_of_intact {state next : LinkState} {action : LinkAction}
    (hstep : state.step setup action = some next)
    (husable : state.port.channelUsable = true)
    (hintact : ∀ call ∈ state.calls setup action, call.intact = true) :
    state.KeepsChannel action := by
  cases action with
  | client action => trivial
  | runner action =>
      cases action with
      | receive received =>
          have hreceived := hintact _ (List.mem_singleton_self _)
          exact (state.port.processIdleInput_snd received).trans hreceived
      | check => exact husable
      | _ => trivial

theorem InService.step (hservice : InService setup build state.link)
    (h : state.step setup action = some next)
    (hsuits : state.Suits setup action) : InService setup build next.link := by
  have hlink := (step_cases h).1
  refine ⟨hservice.reached.step hlink, fun halive => ?_⟩
  have hbefore := LinkState.clientsAlive_of_step hlink halive
  obtain ⟨hloop, husable⟩ := hservice.loop hbefore
  have hintact := (intact_iff h).mpr (hsuits hbefore)
  refine ⟨?_, (LinkState.channelUsable_step hlink hintact).trans husable⟩
  have hkeeps := keepsChannel_of_intact hlink husable hintact
  obtain ⟨action, plans⟩ := action
  cases action with
  | runner action =>
      refine LinkState.leavesEmpty_runnerStep hlink ?_ hkeeps hloop
      intro hphase
      obtain ⟨earlier, hearlier⟩ := hservice.reached
      exact LinkState.counted_run hearlier (by rw [hphase]; rfl)
  | client action =>
      refine LinkState.leavesEmpty_clientStep hlink ?_ hloop
      cases action with
      | dropClients =>
          simp only [LinkState.step, LinkState.clientStep] at hlink
          split_ifs at hlink
          injection hlink with hlink
          rw [← hlink] at halive
          contradiction
      | _ => trivial

theorem suits_of_serving (h : state.step setup action = some next)
    (hserving : next.Serving) : state.Suits setup action := by
  intro halive
  have hlink := (step_cases h).1
  refine (intact_iff h).mp ?_
  by_contra hbroken
  push Not at hbroken
  obtain ⟨call, hcall, hbroken⟩ := hbroken
  have hbreaks := LinkState.breaks_of_broken hlink
    ⟨call, hcall, Bool.eq_false_iff.mpr hbroken⟩
  obtain ⟨action, plans⟩ := action
  cases action with
  | client action => contradiction
  | runner action =>
      have hnext := (LinkState.clientsAlive_runnerStep hlink).trans halive
      obtain ⟨husable, hleaves⟩ := hserving hnext
      have hpoisoned := hbreaks.poisoned
      unfold LinkState.Poisoned at hpoisoned
      cases hphase : next.link.phase
      all_goals rw [hphase] at hpoisoned hleaves
      all_goals first
        | contradiction
        | rw [husable] at hpoisoned; contradiction

end Steps

/--
In every state of a run of a link over HART-IP the runner serves its clients on
a usable channel, exactly if every receive found bytes of an earlier answer and
every send found none and was answered in time by a response of status zero.
-/
theorem run_serving_iff (setup : LinkSetup) (build : LinkBuild)
    (channel : IpPacketChannel)
    (actions : List (LinkAction × List (List Await))) (final : IpLink)
    (hrun : runSteps (step setup) ⟨build.initial, channel⟩ actions =
      some final) :
    (∀ done, done <+: actions → ∀ state,
        runSteps (step setup) ⟨build.initial, channel⟩ done = some state →
          state.Serving) ↔
      Along (step setup) (Suits setup) ⟨build.initial, channel⟩ actions := by
  have hinitial : InService setup build build.initial := by
    refine ⟨⟨[], rfl⟩, fun _ => ⟨⟨rfl, ?_, ?_, ?_, ?_⟩, rfl⟩⟩
    · rintro (hpolled | hleaves) <;> contradiction
    · intro hleaves
      contradiction
    · intro queue job reply followers error hphase
      contradiction
    · intro reply hreply
      contradiction
  exact @forall_prefix_iff_along _ _ (step setup) (Suits setup)
    (fun state => InService setup build state.link) Serving
    InService.serving (fun hstep hservice => hservice.step hstep)
    suits_of_serving _ _ _ hrun hinitial

/-- The adapter of an open session whose server answers one request. -/
def answeringChannel : IpPacketChannel :=
  { session :=
      { stream :=
          { input := IpPacket.encoding
              ⟨1, .response, 3, 0, 1, identifyResponse.encoding⟩ }
        isOpen := true }
    messageId := IpSession.tokenPassingPdu }

def answeredActions : List (LinkAction × List (List Await)) :=
  (startIn ⟨0⟩ :: serve fun _ => receiving identifyResponse.encoding).map
    (·, [])

theorem isSome_answeredRun :
    (runSteps (step plainSetup) ⟨pairBuild.initial, answeringChannel⟩
      answeredActions).isSome := by
  decide +kernel

theorem run_serving_iff_answered :
    (∀ done, done <+: answeredActions → ∀ state,
        runSteps (step plainSetup) ⟨pairBuild.initial, answeringChannel⟩
          done = some state → state.Serving) ↔
      Along (step plainSetup) (Suits plainSetup)
        ⟨pairBuild.initial, answeringChannel⟩ answeredActions :=
  run_serving_iff plainSetup pairBuild answeringChannel answeredActions _
    (Option.some_get isSome_answeredRun).symm

def idleActions : List (LinkAction × List (List Await)) :=
  [.runner .poll, .runner .readInputClosed,
    .runner (.receive (.error .closed))].map (·, [])

theorem idle_link_stops :
    ∃ state, runSteps (step plainSetup)
        ⟨pairBuild.initial, answeringChannel⟩ idleActions = some state ∧
      state.channel.session.isOpen = true ∧
      state.channel.session.usable = true ∧
      state.link.clientsAlive = true ∧
      state.link.phase = .stopping ∧ ¬ state.Serving := by
  refine ⟨_, rfl, rfl, rfl, rfl, rfl, ?_⟩
  intro hserving
  exact absurd (hserving rfl).2 (by decide)

end IpLink

end HartLink.Ip

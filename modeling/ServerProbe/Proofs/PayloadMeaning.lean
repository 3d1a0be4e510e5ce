/-
What a payload means, whatever is asked.

A payload is read against a situation, but little of the situation matters. A reply that
answers a phase is refused once the phase is sealed, and says the same in every other
situation; a token is of use unless it is the one that is held already; a datagram of a
numbered reply is passed over if its number has been seen; and what makes no sense makes
none anywhere. So what a payload means can be said without the situation, as a `Meaning`,
and how it reads follows from that (`Protocol.exists_meaning`).

Pieces of split replies are left out, since what they mean depends on what was learned
about the server.
-/
import ServerProbe.Proofs.Splitting
import ServerProbe.Proofs.ReplyFaults

set_option autoImplicit false

namespace ServerProbe

open Reply

/-! ## Readers whose faults are final -/

namespace Reply

variable {α : Type}

/-- Whether whatever stops a reader ends the query. -/
def Closes (m : Reply α) : Prop :=
  ∀ r noted fault noted', m r noted = .stop fault noted' → fault.kind.isFatal = true

/-- What lies in the payload is never passed over. -/
theorem StopsWith.closes {m : Reply α} (h : StopsWith Fault.InPayload m) : Closes m :=
  fun r noted fault noted' hstop => (h r noted fault noted' hstop).isFatal

end Reply

/-! ## Meanings -/

/-- Whether a fact is one entry of a list: a rule, or a player that is not numbered. -/
def Fact.IsEntry : Fact → Prop
  | .rule _ _ => True
  | .newcomer _ => True
  | _ => False

/-- What a payload means. -/
inductive Meaning where
  /-- Nothing that the protocol provides for. -/
  | broken (fault : Fault)
  /-- A token. -/
  | token (value : Int32)
  /-- A reply to a phase, which says this. -/
  | reply (phase : Phase) (said : Reading)
  /-- One datagram of a numbered reply. -/
  | datagram (number : UInt8) (final : Bool) (facts : List Fact) (fault : Option Fault)

/-- What a reply to a phase can say. -/
inductive Answers (phase : Phase) : Reading → Prop where
  /-- It says nothing. -/
  | nothing (fault : Fault) : Answers phase ⟨[], .error fault⟩
  /-- It breaks off, and that ends the query. -/
  | broken (facts : List Fact) {fault : Fault} : fault.kind.isFatal = true →
      Answers phase ⟨facts, .error fault⟩
  /-- It answers the status, and perhaps other phases with it. -/
  | status (facts : List Fact) {answered : PhaseSet} : phase = .status → phase ∈ answered →
      Answers phase ⟨facts, .ok (.done answered true)⟩
  /-- It lists what there is of one kind. -/
  | entries {facts : List Fact} : (∀ f ∈ facts, f.IsEntry) →
      Answers phase ⟨facts, .ok (.done (PhaseSet.ofList [phase]) true)⟩

namespace Meaning

/-- How a payload with a meaning reads in a situation. -/
def reading (s : Situation) : Meaning → Reading
  | broken fault => ⟨[], .error fault⟩
  | token value =>
    if s.current = some .challenge then
      if .challenge ∈ s.sealed then ⟨[], .error (.unexpected .challenge)⟩
      else ⟨[.token value], .ok (.done (PhaseSet.ofList [.challenge]) true)⟩
    else if s.session.challenge = some value then ⟨[], .error (.unexpected .challenge)⟩
    else ⟨[.token value], .ok (.more true)⟩
  | reply phase said =>
    if phase ∈ s.sealed then ⟨[], .error (.unexpected phase)⟩ else said
  | datagram number final facts fault =>
    if .status ∈ s.sealed then ⟨[], .error (.unexpected .status)⟩
    else if Session.maskHas s.session.received number then ⟨[], .ok (.more false)⟩
    else ⟨.datagram number final :: facts,
      match fault with
      | some fault => .error fault
      | none => .ok <|
        if (s.session.arrived number final).isWhole then .done Protocol.GameSpy.answered true
        else .more false⟩

/-- Whether a reply answers what it is a reply to. -/
def Regular : Meaning → Prop
  | reply phase said => Answers phase said
  | _ => True

end Meaning

/-! ## Readers that have a meaning -/

/-- Whether what is left of a payload has a meaning to a reader, in a session with this
id. -/
def Meant (id : UInt32) (m : Situation → Reply Ending) (r : Reader) : Prop :=
  ∃ meaning : Meaning, meaning.Regular ∧
    ∀ s, s.session.sessionId = id → (m s r []).reading = meaning.reading s

section Meant

variable {α : Type} {id : UInt32} {r : Reader}

theorem meant_fail (fault : Fault) : Meant id (fun _ => fail fault) r :=
  ⟨.broken fault, trivial, fun _ _ => rfl⟩

theorem meant_read {op : Reader.Read α} {k : Situation → α → Reply Ending}
    (h : ∀ a r', op r = .ok (a, r') → Meant id (fun s => k s a) r') :
    Meant id (fun s => read op >>= k s) r := by
  rcases hop : op r with e | ⟨a, r'⟩
  · refine ⟨.broken (.unreadable e), trivial, fun s _ => ?_⟩
    exact congrArg Step.reading (bind_read_error hop [])
  · obtain ⟨meaning, hregular, hreading⟩ := h a r' hop
    refine ⟨meaning, hregular, fun s hs => ?_⟩
    exact (congrArg Step.reading (bind_read_ok hop [])).trans (hreading s hs)

theorem meant_require {value : Option α} {fault : Fault} {k : Situation → α → Reply Ending}
    (h : ∀ a, Meant id (fun s => k s a) r) :
    Meant id (fun s => require value fault >>= k s) r := by
  cases value with
  | none => exact ⟨.broken fault, trivial, fun _ _ => rfl⟩
  | some a => exact h a

theorem meant_ite {c : Prop} [Decidable c] {m₁ m₂ : Situation → Reply Ending}
    (h₁ : c → Meant id m₁ r) (h₂ : ¬c → Meant id m₂ r) :
    Meant id (fun s => if c then m₁ s else m₂ s) r := by
  by_cases hc : c
  · simp only [if_pos hc]
    exact h₁ hc
  · simp only [if_neg hc]
    exact h₂ hc

/-- What is done with a token. -/
theorem meant_token (token : Int32) :
    Meant id (fun s =>
      (if s.current = some .challenge then do
          accept s .challenge
          note (.token token)
          pure (.done (PhaseSet.ofList [.challenge]) true)
        else if s.session.challenge = some token then fail (.unexpected .challenge)
        else do
          note (.token token)
          pure (.more true) : Reply Ending)) r := by
  refine ⟨.token token, trivial, fun s _ => ?_⟩
  dsimp only [Meaning.reading]
  by_cases hcurrent : s.current = some .challenge
  · rw [if_pos hcurrent, if_pos hcurrent]
    by_cases hsealed : Phase.challenge ∈ s.sealed
    · rw [if_pos hsealed, bind_accept_sealed hsealed]
      rfl
    · rw [if_neg hsealed, bind_accept_open hsealed]
      rfl
  · rw [if_neg hcurrent, if_neg hcurrent]
    by_cases hheld : s.session.challenge = some token
    · rw [if_pos hheld, if_pos hheld]
      rfl
    · rw [if_neg hheld, if_neg hheld]
      rfl

/-- What is refused once a phase is sealed, and is otherwise read without a look at the
situation, is a reply to that phase. -/
theorem meant_accept {phase : Phase} {rest : Reply Ending} {fact : Fact → Prop}
    {result : Ending → Prop} (hcloses : Closes rest) (hyields : Yields fact result rest)
    (hanswers : ∀ facts ending, (∀ f ∈ facts, fact f) → result ending →
      Answers phase ⟨facts, .ok ending⟩) :
    Meant id (fun s => accept s phase >>= fun _ => rest) r := by
  refine ⟨.reply phase (rest r []).reading, ?_, fun s _ => ?_⟩
  · have hrun := hyields r []
    show Answers phase _
    rcases h : rest r [] with ⟨ending, r', noted⟩ | ⟨fault, noted⟩
    · rw [h] at hrun
      obtain ⟨hresult, new, rfl, hnew⟩ := hrun
      exact hanswers _ _ (by simpa using hnew) hresult
    · exact .broken _ (hcloses r [] fault noted h)
  · dsimp only [Meaning.reading]
    by_cases hsealed : phase ∈ s.sealed
    · rw [if_pos hsealed, bind_accept_sealed hsealed]
      rfl
    · rw [if_neg hsealed, bind_accept_open hsealed]

/-- A whole reply to the status. -/
theorem meant_status {rest : Reply Ending} {answered : PhaseSet} (hstatus : .status ∈ answered)
    (hcloses : Closes rest) (hyields : Yields Fact.Plain (· = .done answered true) rest) :
    Meant id (fun s => accept s .status >>= fun _ => rest) r := by
  refine meant_accept hcloses hyields ?_
  rintro facts _ - rfl
  exact .status facts rfl hstatus

end Meant

namespace Protocol

/-! ## Source and GoldSrc -/

namespace A2s

/-- Rules and players are entries of a list. -/
theorem StandsIn.isEntry {phase : Phase} (hphase : phase = .rules ∨ phase = .players) {f : Fact}
    (h : StandsIn phase f) : f.IsEntry := by
  rcases hphase with rfl | rfl
  · cases h
    trivial
  · cases h
    trivial

/-- A reply that lists what there is of one kind. -/
theorem meant_entries {id : UInt32} {r : Reader} {phase : Phase}
    (hphase : phase = .rules ∨ phase = .players) {body : Reply Unit}
    (hstops : StopsWith Fault.InPayload body) (hbody : NotesOn phase body) :
    Meant id (fun s => answer s phase body) r := by
  have hends : Yields Fact.IsEntry (· = Ending.done (PhaseSet.ofList [phase]) true)
      (body >>= fun _ => pure (Ending.done (PhaseSet.ofList [phase]) true)) :=
    yields_bind (hbody.mono (fun _ => StandsIn.isEntry hphase) fun _ h => h) fun _ =>
      yields_pure rfl
  refine meant_accept (stops_bind hstops fun _ => stops_pure _).closes hends ?_
  rintro facts _ hfacts rfl
  exact .entries hfacts

theorem meant_single {id : UInt32} {r : Reader} : Meant id single r := by
  refine meant_read fun kind r₁ _ => meant_ite (fun _ => ?_) fun _ => ?_
  · exact meant_read fun token r₂ _ => meant_token token
  refine meant_ite (fun _ => ?_) fun _ => meant_ite (fun _ => ?_) fun _ => ?_
  · refine meant_status (by decide) (stops_bind ?_ fun _ => stops_pure _).closes
      (yields_bind ?_ fun _ => yields_pure rfl)
    · exact stops_bind stops_status fun _ => stops_note _
    · exact yields_bind (notesOn_status.plain nofun) fun _ => yields_note nofun
  · refine meant_status (by decide) (stops_bind ?_ fun _ => stops_pure _).closes
      (yields_bind ?_ fun _ => yields_pure rfl)
    · exact stops_bind stops_goldSrcStatus fun _ => stops_note _
    · exact yields_bind (notesOn_goldSrcStatus.plain nofun) fun _ => yields_note nofun
  refine meant_ite (fun _ => ?_) fun _ => meant_ite (fun _ => ?_) fun _ => meant_fail _
  · exact meant_entries (.inl rfl) (stops_bind (stops_read_inPayload _) fun _ => stops_rules _)
      (yields_bind (yields_read _) fun _ => notesOn_rules _)
  · exact meant_entries (.inr rfl) (stops_bind (stops_read_inPayload _) fun _ => stops_players _)
      (yields_bind (yields_read _) fun _ => notesOn_players _)

/-- A payload after whose start the marker -2 is read is a piece of a split reply. -/
theorem startsSplit_of_marker {payload : List UInt8} {r : Reader}
    (h : (Reader.ofPayload payload).int32LE = .ok (-2, r)) : splitHeader <+: payload :=
  ⟨r.rest, (Reader.rest_of_int32LE h).symm⟩

theorem meant_reply (id : UInt32) {payload : List UInt8} (hsingle : ¬splitHeader <+: payload) :
    Meant id reply (Reader.ofPayload payload) := by
  refine meant_read fun marker r hmarker => meant_ite (fun _ => meant_single) fun _ => ?_
  refine meant_ite (fun hsplit => ?_) fun _ => meant_fail _
  exact absurd (startsSplit_of_marker (hsplit ▸ hmarker)) hsingle

end A2s

/-! ## The first GameSpy query -/

namespace GameSpy

/-- The pairs of a datagram are noted after its number, up to a fault if there is one. -/
theorem reading_notePairs (pairs : List Pair) (r : Reader) (number : Fact) :
    ∃ facts fault, ∀ ending, ((do notePairs pairs; pure ending : Reply Ending) r [number]).reading
      = ⟨number :: facts, match fault with
        | some fault => .error fault
        | none => .ok ending⟩ := by
  have hyields := notes_notePairs pairs r [number]
  rcases hrun : notePairs pairs r [number] with ⟨_, r', noted⟩ | ⟨fault, noted⟩
  · rw [hrun] at hyields
    obtain ⟨-, new, rfl, -⟩ := hyields
    refine ⟨new.reverse, none, fun ending => ?_⟩
    rw [bind_next hrun, pure_run, Step.reading]
    simp
  · rw [hrun] at hyields
    obtain ⟨new, rfl, -⟩ := hyields
    refine ⟨new.reverse, some fault, fun ending => ?_⟩
    rw [bind_stop hrun, Step.reading]
    simp

/-- Any datagram is about the status, so it is refused once the status is sealed. What else
it reads as depends on which numbers have come. -/
theorem meant_reply (id : UInt32) (payload : List UInt8) :
    Meant id reply (Reader.ofPayload payload) := by
  suffices h : ∃ meaning : Meaning, meaning.Regular ∧ ∀ s,
      (.status ∈ s.sealed → meaning.reading s = ⟨[], .error (.unexpected .status)⟩) ∧
      (.status ∉ s.sealed → (reply s (Reader.ofPayload payload) []).reading = meaning.reading s) by
    obtain ⟨meaning, hregular, hreading⟩ := h
    refine ⟨meaning, hregular, fun s _ => ?_⟩
    by_cases hsealed : .status ∈ s.sealed
    · rw [(hreading s).1 hsealed, reply, bind_accept_sealed hsealed]
      rfl
    · exact (hreading s).2 hsealed
  have hrest : takeRest (Reader.ofPayload payload) []
      = .next payload (Reader.ofPayload payload).takeRest.2 [] := rfl
  -- without pairs or without a number the datagram says nothing
  rcases hpairs : splitPairs (textOf payload) with fault | pairs
  · refine ⟨.reply .status ⟨[], .error fault⟩, .nothing fault,
      fun s => ⟨fun h => if_pos h, fun hopen => ?_⟩⟩
    refine Eq.trans ?_ (if_neg hopen).symm
    rw [reply, bind_accept_open hopen, bind_next hrest, hpairs]
    rfl
  rcases hn : numbering pairs with fault | n
  · refine ⟨.reply .status ⟨[], .error fault⟩, .nothing fault,
      fun s => ⟨fun h => if_pos h, fun hopen => ?_⟩⟩
    refine Eq.trans ?_ (if_neg hopen).symm
    rw [reply, bind_accept_open hopen, bind_next hrest, hpairs, bind_next (by rfl), hn]
    rfl
  obtain ⟨facts, fault, hnoted⟩ := reading_notePairs pairs (Reader.ofPayload payload).takeRest.2
    (.datagram n.number n.final)
  refine ⟨.datagram n.number n.final facts fault, trivial,
    fun s => ⟨fun h => if_pos h, fun hopen => ?_⟩⟩
  refine Eq.trans ?_ (if_neg hopen).symm
  rw [reply, bind_accept_open hopen, bind_next hrest, hpairs, bind_next (by rfl), hn,
    bind_next (by rfl)]
  by_cases hcame : Session.maskHas s.session.received n.number = true
  · rw [if_pos hcame, if_pos hcame]
    rfl
  · rw [if_neg hcame, if_neg hcame, bind_note]
    by_cases hwhole : (s.session.arrived n.number n.final).isWhole = true
    · simp only [if_pos hwhole]
      exact hnoted _
    · simp only [if_neg hwhole]
      exact hnoted _

end GameSpy

/-! ## Quake 3 -/

namespace Quake3

theorem meant_reply (id : UInt32) (r : Reader) : Meant id reply r := by
  refine meant_read fun _ r₁ _ => ?_
  rcases hword : r₁.expect responseWord with e | ⟨_, r₂⟩
  · have hrun : expectResponse r₁ [] = .stop (.unsupported "not a statusResponse") [] := by
      unfold expectResponse
      rw [hword]
    exact ⟨.broken (.unsupported "not a statusResponse"), trivial,
      fun s _ => congrArg Step.reading (bind_stop hrun)⟩
  · have hrun : expectResponse r₁ [] = .next () r₂ [] := by
      unfold expectResponse
      rw [hword]
    obtain ⟨meaning, hregular, hreading⟩ : Meant id (fun s => accept s .status >>= fun _ => do
        let body ← takeRest
        noteLines (((Text.Utf8.decode body).splitOn '\n').drop 1)
        pure (.done (PhaseSet.ofList [.status, .rules, .players]) true)) r₂ := by
      have hstatus : Phase.status ∈ PhaseSet.ofList [.status, .rules, .players] := by decide
      refine meant_status hstatus ?_ ?_
      · refine StopsWith.closes (stops_bind stops_takeRest fun _ => ?_)
        exact stops_bind (stops_noteLines _) fun _ => stops_pure _
      · exact yields_bind yields_takeRest fun _ =>
          yields_bind (notesStatus_noteLines _).plain fun _ => yields_pure rfl
    exact ⟨meaning, hregular,
      fun s hs => (congrArg Step.reading (bind_next hrun)).trans (hreading s hs)⟩

end Quake3

/-! ## The fourth GameSpy query -/

namespace GameSpy4

theorem meant_handshake {id : UInt32} {r : Reader} : Meant id handshake r :=
  meant_read fun _ _ _ => meant_require fun token => meant_token token

theorem meant_reply (id : UInt32) (r : Reader) : Meant id reply r := by
  refine meant_read fun kind r₁ _ => meant_read fun own r₂ _ => ?_
  -- the id is the same in all situations, so a datagram with another one is always refused
  have hown : Meant id (fun s => if own.toUInt32 ≠ id then
      fail (.unsupported ("session id " ++ Text.wordHex own.toUInt32 ++ " does not match "
        ++ Text.wordHex id))
    else if kind = handshakeType then handshake s
    else if kind = statusType then do
      accept s .status
      fullStatus
      pure (.done (PhaseSet.ofList [.status, .rules, .players]) true)
    else fail (.unknownType kind)) r₂ := by
    refine meant_ite (fun _ => meant_fail _) fun _ => meant_ite (fun _ => meant_handshake) ?_
    refine fun _ => meant_ite (fun _ => ?_) fun _ => meant_fail _
    exact meant_status (by decide) (stops_bind stops_fullStatus fun _ => stops_pure _).closes
      (yields_bind notesStatus_fullStatus.plain fun _ => yields_pure rfl)
  obtain ⟨meaning, hregular, hreading⟩ := hown
  refine ⟨meaning, hregular, fun s hs => ?_⟩
  subst hs
  exact hreading s rfl

end GameSpy4

/-! ## All protocols -/

/-- **Every payload has a meaning,** unless it is a piece of a split reply. In each situation
it reads as its meaning says, as long as the id of the session is the same. -/
theorem exists_meaning (p : Protocol) (id : UInt32) {payload : List UInt8}
    (hsingle : p = .a2s → ¬A2s.splitHeader <+: payload) :
    ∃ meaning : Meaning, meaning.Regular ∧
      ∀ s, s.session.sessionId = id → p.read s payload = meaning.reading s := by
  have hmeant : Meant id p.reply (Reader.ofPayload payload) := by
    cases p with
    | a2s => exact A2s.meant_reply id (hsingle rfl)
    | gamespy => exact GameSpy.meant_reply id payload
    | q3 => exact Quake3.meant_reply id _
    | gs4 => exact GameSpy4.meant_reply id _
  obtain ⟨meaning, hregular, hreading⟩ := hmeant
  refine ⟨meaning, hregular, fun s hs => ?_⟩
  rw [Protocol.read, readAll_eq]
  exact hreading s hs

end Protocol

end ServerProbe

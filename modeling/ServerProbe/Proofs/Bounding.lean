/-
Nothing goes out of range.

A few operations of the readers are partial: the bit of a datagram is found by a shift, a player
that the server does not number uses up a number of 32 bits, and a text is cut at positions in
octets. None of them is checked where it is used. Here are the readers once more with each of
them checked, so that a payload comes to nothing where one of them would fail
(`Target.checkedExchanged`).

What keeps them in range was told by earlier payloads. The number of a datagram is read from 1
to 63, so the last one has a bit and nobody has bit 0 (`Session.Marked`). A query with too many
players ends, so the count is behind the players of the target and of the broadcast it came
from (`Exchange.Counts`), and one more may have been told without room. Every text can be cut
where it is cut (`GameSpy.splitPairs?_eq`). So in every state of a run every payload is taken in
as if nothing had been checked (`Engine.codecs_in_range`).
-/
import ServerProbe.Proofs.Numbering
import ServerProbe.Proofs.Roster
import ServerProbe.Proofs.Slicing

set_option autoImplicit false

namespace ServerProbe

/-! ## Sessions -/

namespace Session

/-- Whether a datagram can have the number. -/
def IsNumber (n : UInt8) : Prop := 1 ≤ n ∧ n ≤ 63

instance (n : UInt8) : Decidable (IsNumber n) := inferInstanceAs (Decidable (_ ∧ _))

/-- The bit of a datagram, if it can have the number. -/
def datagramBit? (n : UInt8) : Option UInt64 := if IsNumber n then some (datagramBit n) else none

/-- Whether a mask holds the bit of a datagram, if it can have the number. -/
def maskHas? (mask : UInt64) (n : UInt8) : Option Bool :=
  (datagramBit? n).map fun bit => mask &&& bit != 0

/-- Whether every datagram up to the last has arrived, if they can have their numbers. -/
def isWhole? (s : Session) : Option Bool :=
  match s.finalIndex with
  | none => some false
  | some last => (List.range' 1 last.toNat).allM fun n => maskHas? s.received (UInt8.ofNat n)

/-- A session that has counted one more player, if there is a number after the next. -/
def countOn? (s : Session) : Option Session :=
  if s.nextPlayer < Int32.maxValue then some { s with nextPlayer := s.nextPlayer + 1 } else none

/-- Whether the datagrams noted can have their numbers: the last one has come and has a bit, and
no datagram has bit 0. -/
structure Marked (s : Session) : Prop where
  zero : maskHas s.received 0 = false
  last : ∀ n ∈ s.finalIndex, IsNumber n ∧ maskHas s.received n = true

/-- Whether the numbers of a session are in range. -/
structure InRange (s : Session) : Prop extends Marked s where
  next : 0 ≤ s.nextPlayer.toInt ∧ s.nextPlayer.toInt ≤ 2049

variable {s : Session} {n : UInt8}

theorem IsNumber.toNat_lt (h : IsNumber n) : n.toNat < 64 :=
  Nat.lt_succ_of_le (UInt8.le_iff_toNat_le.mp h.2)

theorem maskHas?_eq (mask : UInt64) (h : IsNumber n) :
    maskHas? mask n = some (maskHas mask n) := by
  rw [maskHas?, datagramBit?, if_pos h]
  rfl

/-- Where every test comes to something, so do all of them. -/
theorem allM_eq_some {α : Type} {test : α → Option Bool} {holds : α → Bool} {l : List α}
    (h : ∀ a ∈ l, test a = some (holds a)) : l.allM test = some (l.all holds) := by
  induction l with
  | nil => rfl
  | cons a rest ih =>
    rw [List.allM, h a List.mem_cons_self, List.all_cons]
    rcases holds a with _ | _
    · rfl
    · exact ih fun b hb => h b (List.mem_cons_of_mem a hb)

/-- If the last datagram can have its number, so can those before it. -/
theorem Marked.isWhole?_eq (h : s.Marked) : s.isWhole? = some s.isWhole := by
  rw [isWhole?, isWhole]
  rcases hlast : s.finalIndex with _ | last
  · rfl
  · refine allM_eq_some fun n hn => maskHas?_eq _ ?_
    obtain ⟨hone, hle⟩ := List.mem_range'_1.mp hn
    -- a number up to the last has no more bits than the last
    have hbits := (h.last last hlast).1.toNat_lt
    have hsmall : n ≤ 63 := by omega
    rw [IsNumber, UInt8.le_iff_toNat_le, UInt8.le_iff_toNat_le,
      Protocol.GameSpy.toNat_ofNat_of_le hsmall]
    exact ⟨hone, hsmall⟩

theorem Marked.fresh (p : Protocol) (nonce : UInt32) : (p.prepare nonce {}).Marked := by
  have hempty : ({} : Session).Marked := ⟨by decide, nofun⟩
  cases p <;> exact ⟨hempty.zero, hempty.last⟩

/-- **One more datagram.** -/
theorem Marked.arrived (h : s.Marked) (hn : IsNumber n) (final : Bool) :
    (s.arrived n final).Marked := by
  constructor
  · show maskHas (s.received ||| datagramBit n) 0 = false
    rw [maskHas_or_datagramBit _ hn.toNat_lt (by decide), h.zero, Bool.false_or,
      beq_eq_false_iff_ne]
    rintro rfl
    exact absurd hn.1 (by decide)
  · intro m hm
    show IsNumber m ∧ maskHas (s.received ||| datagramBit n) m = true
    rw [maskHas_or]
    rcases final with _ | _
    · obtain ⟨hm, hcome⟩ := h.last m hm
      exact ⟨hm, by rw [hcome, Bool.true_or]⟩
    · obtain rfl : n = m := Option.some.inj hm
      exact ⟨hn, by rw [maskHas_self, Bool.or_true]⟩

/-- **One more fact.** -/
theorem Marked.noting (h : s.Marked) {f : Fact}
    (hf : ∀ number final, f = .datagram number final → IsNumber number) :
    (s.noting f).Marked := by
  cases f with
  | datagram number final => exact h.arrived (hf number final rfl) final
  | _ => exact ⟨h.zero, h.last⟩

end Session

/-! ## Checked readers -/

namespace Reply

/-- A reader of replies that comes to nothing where something is out of range. -/
def Checked (α : Type) : Type := Reader → List Fact → Option (Reply.Step α)

namespace Checked

variable {α β : Type}

/-- A reader in which nothing can be out of range. -/
def lift (m : Reply α) : Checked α := fun r noted => some (m r noted)

/-- Yields what an operation comes to, if it is in range. -/
def check (value : Option α) : Checked α := fun r noted => value.map fun a => .next a r noted

/-- Reads on from where the first reader got to. -/
protected def bind (m : Checked α) (k : α → Checked β) : Checked β := fun r noted =>
  match m r noted with
  | none => none
  | some (.next a r' noted') => k a r' noted'
  | some (.stop fault noted') => some (.stop fault noted')

instance : Monad Checked where
  pure a := lift (pure a)
  bind := Checked.bind

/-- Reads a whole payload. -/
def readAll? (m : Checked Ending) (payload : List UInt8) : Option Reading :=
  (m (Reader.ofPayload payload) []).map Step.reading

theorem lift_bind {m : Reply α} {k : α → Checked β} {k' : α → Reply β}
    (h : ∀ a, k a = lift (k' a)) : lift m >>= k = lift (m >>= k') := by
  funext r noted
  show Checked.bind (lift m) k r noted = some (Reply.bind m k' r noted)
  rw [Checked.bind, Reply.bind, lift]
  rcases m r noted with ⟨a, r', noted'⟩ | ⟨fault, noted'⟩
  · exact congrFun (congrFun (h a) r') noted'
  · rfl

theorem check_bind {value : Option α} {a : α} (h : value = some a) (k : α → Checked β) :
    check value >>= k = k a := by
  rw [h]
  rfl

theorem readAll?_lift (m : Reply Ending) (payload : List UInt8) :
    (lift m).readAll? payload = some (m.readAll payload) := by
  rw [readAll_eq]
  rfl

end Checked

end Reply

namespace Protocol

open Reply Reply.Checked

namespace GameSpy

/-- `GameSpy.reply` with every cut and every shift checked. -/
def checkedReply (s : Situation) : Checked Ending := do
  lift (accept s .status)
  let payload ← lift takeRest
  let split ← check (splitPairs? (textOf payload))
  let pairs ← lift (ofExcept split)
  let n ← lift (ofExcept (numbering pairs))
  let came ← check (Session.maskHas? s.session.received n.number)
  if came then lift (pure (.more false))
  else
    lift (note (.datagram n.number n.final))
    lift (notePairs pairs)
    let whole ← check (s.session.arrived n.number n.final).isWhole?
    if whole then lift (pure (.done answered true)) else lift (pure (.more false))

theorem lift_ofExcept_bind {α β : Type} {value : Except Fault α} {k : α → Checked β}
    {k' : α → Reply β} (h : ∀ a, value = .ok a → k a = lift (k' a)) :
    lift (ofExcept value) >>= k = lift (ofExcept value >>= k') := by
  cases value with
  | ok a => exact h a rfl
  | error fault => rfl

/-- What stands under `queryid` is the number of a datagram or is refused. -/
theorem isNumber_of_packetNumber {value : List Char} {n : UInt8}
    (h : packetNumber value = .ok n) : Session.IsNumber n := by
  unfold packetNumber at h
  split at h
  · obtain rfl : 1 = n := Except.ok.inj h
    decide
  · split at h
    · rename_i hfilter
      obtain rfl := Except.ok.inj h
      simpa [Session.IsNumber, UInt8.lt_iff_toNat_lt, UInt8.le_iff_toNat_le, Nat.lt_succ_iff]
        using (Option.filter_eq_some_iff.mp hfilter).2
    · cases h

/-- One more pair leaves a number of a datagram. -/
theorem isNumber_of_step {n n' : Numbering} {pair : Pair} (hn : Session.IsNumber n.number)
    (h : n.step pair = .ok n') : Session.IsNumber n'.number := by
  unfold Numbering.step at h
  split at h
  · rcases hnumber : packetNumber pair.2 with fault | number
    all_goals rw [hnumber] at h
    · cases h
    · obtain rfl := Except.ok.inj h
      exact isNumber_of_packetNumber hnumber
  · split at h
    all_goals
      obtain rfl := Except.ok.inj h
      exact hn

/-- The number that the pairs give is that of a datagram. -/
theorem isNumber_of_numbering {pairs : List Pair} {n : Numbering} (h : numbering pairs = .ok n) :
    Session.IsNumber n.number := by
  -- by induction on the pairs, whatever number has been found before
  have along : ∀ (pairs : List Pair) (start : Numbering), Session.IsNumber start.number →
      pairs.foldlM Numbering.step start = .ok n → Session.IsNumber n.number := by
    intro pairs
    induction pairs with
    | nil =>
      intro start hstart hfold
      obtain rfl := Except.ok.inj hfold
      exact hstart
    | cons pair rest ih =>
      intro start hstart hfold
      rw [List.foldlM_cons] at hfold
      rcases hnext : start.step pair with fault | next
      · rw [hnext] at hfold
        cases hfold
      · rw [hnext] at hfold
        exact ih next (isNumber_of_step hstart hnext) hfold
  exact along pairs {} (by decide) h

/-- What a datagram notes as its number is one. -/
theorem yields_number (s : Situation) :
    Yields (fun f => ∀ number final, f = .datagram number final → Session.IsNumber number)
      (fun _ => True) (reply s) := by
  unfold reply
  refine yields_bind (yields_accept s .status) fun _ => yields_bind yields_takeRest fun _ => ?_
  refine yields_bind_ofExcept fun pairs _ => yields_bind_ofExcept fun n hn => ?_
  refine yields_ite (yields_pure trivial) (yields_bind (yields_note ?_) fun _ => ?_)
  · rintro number final hf
    obtain ⟨rfl, -⟩ := Fact.datagram.inj hf
    exact isNumber_of_numbering hn
  · refine yields_bind ((notes_notePairs pairs).mono ?_ fun _ h => h) fun _ =>
      yields_ite (yields_pure trivial) (yields_pure trivial)
    exact fun f hf number final hdatagram => absurd hdatagram (hf.2 number final)

/-- **Nothing in a datagram is out of range,** if the session knows of none that is. -/
theorem checkedReply_eq {s : Situation} (h : s.session.Marked) :
    checkedReply s = lift (reply s) := by
  unfold checkedReply reply
  refine lift_bind fun _ => lift_bind fun payload => ?_
  rw [check_bind (splitPairs?_eq _)]
  refine lift_ofExcept_bind fun pairs _ => lift_ofExcept_bind fun n hn => ?_
  have hnumber := isNumber_of_numbering hn
  rw [check_bind (Session.maskHas?_eq _ hnumber)]
  split
  · rfl
  · refine lift_bind fun _ => lift_bind fun _ => ?_
    rw [check_bind (h.arrived hnumber n.final).isWhole?_eq]
    split
    · rfl
    · rfl

end GameSpy

/-- The reader of replies with all that may be out of range checked. -/
def checkedReply (p : Protocol) (s : Situation) : Checked Ending :=
  match p with
  | gamespy => GameSpy.checkedReply s
  | p => lift (p.reply s)

/-- A payload, read, if nothing in it is out of range. -/
def checkedRead (p : Protocol) (s : Situation) (payload : List UInt8) : Option Reading :=
  (p.checkedReply s).readAll? payload

theorem checkedRead_eq (p : Protocol) {s : Situation} (h : s.session.Marked)
    (payload : List UInt8) : p.checkedRead s payload = some (p.read s payload) := by
  rw [checkedRead, Protocol.read, ← readAll?_lift]
  cases p with
  | gamespy => rw [checkedReply, GameSpy.checkedReply_eq h]; rfl
  | _ => rfl

/-- Of whatever protocol, a datagram is told with a number that it can have. -/
theorem read_datagram (p : Protocol) (s : Situation) (payload : List UInt8) :
    ∀ f ∈ (p.read s payload).facts,
      ∀ number final, f = .datagram number final → Session.IsNumber number := by
  rw [Protocol.read, readAll_eq]
  cases p with
  | a2s =>
    rintro f hf number final rfl
    obtain ⟨phase, hstands, -⟩ := ((A2s.yields_reply s).reading _).1 _ hf
    cases hstands
  | gamespy => exact ((GameSpy.yields_number s).reading _).1
  | q3 =>
    rintro f hf number final rfl
    cases ((Quake3.yields_reply s).reading _).1 _ hf
  | gs4 =>
    refine ((GameSpy4.yields_reply ?_ (fun _ _ _ h => by cases h) s).reading _).1
    rintro f h number final rfl
    cases h

end Protocol

/-! ## Checked learning -/

namespace Exchange

/-- `Exchange.learn` with the count of players checked. -/
def checkedLearn (policy : DuplicatePolicy) (x : Exchange) :
    Fact → Option (Exchange × Option Fault)
  | .newcomer fields => do
    let session ← x.session.countOn?
    some ({ x with session }.keep
      (x.server.addPlayer (Player.setAll { number := x.session.nextPlayer } fields)))
  | fact => some (x.learn policy fact)

/-- Learns facts in order, up to the first that does not fit. -/
def checkedLearnAll (policy : DuplicatePolicy) :
    Exchange → List Fact → Option (Exchange × Option Fault)
  | x, [] => some (x, none)
  | x, fact :: rest => do
    match ← x.checkedLearn policy fact with
    | (x', some fault) => some (x', some fault)
    | (x', none) => checkedLearnAll policy x' rest

/-- Acts on a payload that has been read, if nothing is out of range. -/
def checkedApply (policy : DuplicatePolicy) (x : Exchange) (reading : Reading) :
    Option (Exchange × Receipt) := do
  match ← x.checkedLearnAll policy reading.facts with
  | (x', some fault) => some (x', .ofFault fault)
  | (x', none) =>
    match reading.ending with
    | .error fault => some (x', .ofFault fault)
    | .ok ending => some (x'.conclude ending)

/-- Takes in one payload, if nothing in it is out of range. -/
def checkedReceive (x : Exchange) (p : Protocol) (params : RequestParams)
    (current : Option Phase) (closed : PhaseSet) (payload : List UInt8) :
    Option (Exchange × Receipt) := do
  x.checkedApply params.rulePolicy (← p.checkedRead ⟨current, closed, x.session⟩ payload)

variable {p : Protocol} {policy : DuplicatePolicy} {x : Exchange} {f : Fact}

/-- Whether players can go on to be counted: there is an end to them, and none has been counted
where the server numbers them. -/
structure Countable (p : Protocol) (x : Exchange) : Prop where
  limits : x.server.WithinLimits
  idle : p = .gamespy → x.session.nextPlayer = 0
  counts : p ≠ .gamespy → ∃ start ≤ playerLimit, x.Counts start

/-- Which facts about players a protocol tells. -/
def TellsPlayers (p : Protocol) (f : Fact) : Prop :=
  (p = .gamespy → ∀ fields, f ≠ .newcomer fields) ∧ (p ≠ .gamespy → ∀ number, f ≠ .seen number)

/-- Twice the limit of players can have been counted. -/
theorem Countable.next (h : x.Countable p) : ∃ n ≤ 2048, x.session.nextPlayer = Int32.ofNat n := by
  by_cases hp : p = .gamespy
  · exact ⟨0, Nat.zero_le _, h.idle hp⟩
  · obtain ⟨start, hstart, hcounts⟩ := h.counts hp
    have hlength := h.limits.players
    have hlimit : playerLimit = 1024 := rfl
    exact ⟨start + x.server.players.length, by omega, hcounts.next⟩

/-- What has been counted is in range, and so is one more. -/
theorem Countable.countOn? (h : x.Countable p) :
    x.session.countOn? = some (x.session.noting (.newcomer [])) := by
  obtain ⟨n, hn, hnext⟩ := h.next
  have hlt : x.session.nextPlayer < Int32.maxValue := by
    rw [hnext, Int32.lt_iff_toInt_lt, Int32.toInt_ofNat_of_lt (by omega)]
    exact Int.ofNat_lt.mpr (Nat.lt_of_le_of_lt hn (by decide))
  rw [Session.countOn?, if_pos hlt]
  rfl

theorem Countable.checkedLearn_eq (h : x.Countable p) (policy : DuplicatePolicy) (f : Fact) :
    x.checkedLearn policy f = some (x.learn policy f) := by
  cases f with
  | newcomer fields =>
    rw [checkedLearn, h.countOn?]
    rfl
  | _ => rfl

/-- **One more fact** for which there is room. -/
theorem Countable.learn (h : x.Countable p) (policy : DuplicatePolicy) (hf : TellsPlayers p f)
    (hfit : (x.learn policy f).2 = none) : (x.learn policy f).1.Countable p := by
  refine ⟨(learn_retains policy x f).limits h.limits, fun hp => ?_, fun hp => ?_⟩
  · rw [learn_session, ← h.idle hp]
    cases f with
    | newcomer fields => exact absurd rfl (hf.1 hp fields)
    | _ => rfl
  · obtain ⟨start, hstart, hcounts⟩ := h.counts hp
    exact ⟨start, hstart, (learn_counts policy (hf.2 hp) hcounts).2 hfit⟩

/-- One fact counts one player at most. -/
theorem Countable.next_learn (h : x.Countable p) (policy : DuplicatePolicy) (f : Fact) :
    ∃ n ≤ 2049, (x.learn policy f).1.session.nextPlayer = Int32.ofNat n := by
  obtain ⟨n, hn, hnext⟩ := h.next
  rw [learn_session]
  cases f with
  | newcomer fields =>
    refine ⟨n + 1, by omega, ?_⟩
    show x.session.nextPlayer + 1 = Int32.ofNat (n + 1)
    rw [hnext]
    exact (Int32.ofNat_add n 1).symm
  | _ => exact ⟨n, by omega, hnext⟩

/-- **The count stays in range,** and one more may have been counted without room. -/
theorem Countable.checkedLearnAll_eq (h : x.Countable p) (policy : DuplicatePolicy)
    {facts : List Fact} (hfacts : ∀ f ∈ facts, TellsPlayers p f) :
    x.checkedLearnAll policy facts = some (x.learnAll policy facts) ∧
      ∃ n ≤ 2049, (x.learnAll policy facts).1.session.nextPlayer = Int32.ofNat n := by
  induction facts generalizing x with
  | nil =>
    obtain ⟨n, hn, hnext⟩ := h.next
    exact ⟨rfl, n, by omega, hnext⟩
  | cons f rest ih =>
    have hcount := h.next_learn policy f
    have hfit := h.learn policy (hfacts f List.mem_cons_self)
    rw [checkedLearnAll, h.checkedLearn_eq, learnAll]
    rcases hlearn : x.learn policy f with ⟨x', _ | fault⟩
    · rw [hlearn] at hfit
      exact ih (hfit rfl) fun g hg => hfacts g (List.mem_cons_of_mem f hg)
    · rw [hlearn] at hcount
      exact ⟨rfl, hcount⟩

/-- No payload makes a session know of a datagram that cannot be. -/
theorem receive_marked (h : x.session.Marked) (p : Protocol) (params : RequestParams)
    (current : Option Phase) (closed : PhaseSet) (payload : List UInt8) :
    (x.receive p params current closed payload).1.session.Marked := by
  rw [receive_eq, apply_session]
  refine learnAll_keeps (P := fun x' => x'.session.Marked) (fun x' f hf hx' => ?_) h
  rw [learn_session]
  exact hx'.noting (p.read_datagram _ payload f hf)

/-- Where the server numbers its players none is counted. -/
theorem receive_idle (h : x.session.nextPlayer = 0) (params : RequestParams)
    (current : Option Phase) (closed : PhaseSet) (payload : List UInt8) :
    (x.receive .gamespy params current closed payload).1.session.nextPlayer = 0 := by
  rw [receive_eq, apply_session]
  refine learnAll_keeps (P := fun x' => x'.session.nextPlayer = 0) (fun x' f hf hx' => ?_) h
  rw [learn_session, ← hx']
  cases f with
  | newcomer fields => exact absurd rfl (Protocol.read_ne_newcomer _ payload _ hf fields)
  | _ => rfl

/-- **A payload is taken in** as if nothing had been checked, and leaves the numbers of the
session in range. -/
theorem Countable.checkedReceive_eq (h : x.Countable p) (hmarked : x.session.Marked)
    (params : RequestParams) (current : Option Phase) (closed : PhaseSet)
    (payload : List UInt8) :
    x.checkedReceive p params current closed payload
        = some (x.receive p params current closed payload) ∧
      (x.receive p params current closed payload).1.session.InRange := by
  -- each protocol tells players in one way: by number, or one after another
  have hplayers : ∀ f ∈ (p.read ⟨current, closed, x.session⟩ payload).facts, TellsPlayers p f := by
    intro f hf
    constructor
    · rintro rfl
      exact Protocol.read_ne_newcomer _ payload f hf
    · exact fun hp => Protocol.read_ne_seen hp _ payload f hf
  obtain ⟨hlearn, n, hn, hnext⟩ := h.checkedLearnAll_eq params.rulePolicy hplayers
  refine ⟨?_, receive_marked hmarked p params current closed payload, ?_⟩
  · rw [checkedReceive, p.checkedRead_eq hmarked, receive_eq]
    show x.checkedApply params.rulePolicy _ = some (x.apply params.rulePolicy _)
    rw [checkedApply, hlearn, apply]
    generalize p.read ⟨current, closed, x.session⟩ payload = reading
    rcases x.learnAll params.rulePolicy reading.facts with ⟨x', _ | fault⟩
    · rcases reading with ⟨facts, fault | ending⟩
      · rfl
      · rfl
    · rfl
  · rw [receive_eq, apply_session, hnext, Int32.toInt_ofNat_of_lt (by omega)]
    omega

end Exchange

/-! ## In a run -/

namespace Target

variable {t : Target}

/-- Whether the conversation with a server knows of nothing that is out of range. -/
structure Noted (t : Target) : Prop where
  marked : t.exchange.session.Marked
  idle : t.protocol = .gamespy → t.exchange.session.nextPlayer = 0

theorem Noted.fresh (id : Nat) (address : Address) (mode : TargetMode) (p : Protocol)
    (config : Config) (nonce : UInt32) :
    (Target.fresh id address mode p config nonce).Noted := by
  refine ⟨.fresh p nonce, ?_⟩
  rintro rfl
  rfl

theorem Noted.react (h : t.Noted) (cue : Cue) : (t.react cue).target.Noted := by
  have hprotocol : (t.react cue).target.protocol = t.protocol :=
    congrArg Identity.protocol (t.react_identity cue)
  rcases t.react_exchange cue with hexchange | ⟨payload, now, rfl, hexchange⟩
  · exact ⟨hexchange ▸ h.marked, by rw [hexchange, hprotocol]; exact h.idle⟩
  · constructor
    · rw [hexchange]
      exact Exchange.receive_marked h.marked _ _ _ _ payload
    · rw [hexchange, hprotocol, exchanged]
      intro hp
      rw [hp]
      exact Exchange.receive_idle (h.idle hp) _ _ _ payload

/-- A target that can go on to list players can go on to count them. -/
theorem Rostered.countable (h : t.Rostered) (hnoted : t.Noted) :
    t.exchange.Countable t.protocol where
  limits := h.limits
  idle := hnoted.idle
  counts hp := by
    obtain ⟨start, hstart, -, hcounts⟩ := h.counts hp
    exact ⟨start, hstart, hcounts⟩

/-- What a payload does to the exchange, if nothing in it is out of range. -/
def checkedExchanged (t : Target) (payload : List UInt8) : Option (Exchange × Receipt) :=
  t.exchange.checkedReceive t.protocol t.config.requestParams t.machine.currentPhase?
    t.machine.sealedPhases payload

end Target

namespace Engine

variable {calls : List Call} {t : Target}

theorem Meets.noted (h : Meets calls t) : t.Noted :=
  Meets.every (P := Target.Noted) .fresh (fun _ _ ht => ⟨ht.marked, ht.idle⟩)
    (fun _ _ _ _ ht => ⟨ht.marked, ht.idle⟩) (fun m ht _ => ht.react m.cue) h

/-- **Nothing goes out of range.** In every state of a run, during a call and after it, the
datagrams noted for a target have numbers from 1 to 63, the last one has come, bit 0 is clear,
and the number of the next player is at most 2049. So whatever payload comes next, every shift
is by a number from 1 to 63, every player can be counted and every text is cut between two
characters: the payload is taken in as if nothing had been checked, and leaves the numbers in
range. -/
theorem codecs_in_range (h : Meets calls t) :
    t.exchange.session.InRange ∧ ∀ payload,
      t.checkedExchanged payload = some (t.exchanged payload) ∧
        (t.exchanged payload).1.session.InRange := by
  have hcountable := h.rostered.countable h.noted
  refine ⟨⟨h.noted.marked, ?_⟩, fun payload => ?_⟩
  · obtain ⟨n, hn, hnext⟩ := hcountable.next
    rw [hnext, Int32.toInt_ofNat_of_lt (by omega)]
    omega
  · exact hcountable.checkedReceive_eq h.noted.marked _ _ _ payload

/-- A host answers a broadcast with the last of three datagrams. -/
def lastFirst : List Call :=
  [.add .broadcast "gamespy" ⟨"192.0.2.255", 7778⟩ {} 0 0,
    .receive ⟨"192.0.2.1", 7778⟩
      (Text.Utf8.encode "\\frags_1\\9\\queryid\\7.3\\final\\".toList) 1]

/-- The target of the host. -/
def answeringHost : Target := (run lastFirst).targets.get ⟨1, by decide +kernel⟩

/-- A name with a damaged octet, a character of three octets and a backslash. -/
def damagedName : List UInt8 :=
  Text.Utf8.encode "\\player_1\\Ca".toList ++ [0xC3] ++
    Text.Utf8.encode "\\rol€\\queryid\\7.2".toList

/-- The host is waited for, and its next datagram is taken in. -/
theorem codecs_in_range_answeringHost :
    (answeringHost.parent = some 1 ∧ answeringHost.exchange.session.received = 0b1000 ∧
      answeringHost.exchange.session.finalIndex = some 3) ∧
    Meets lastFirst answeringHost ∧ answeringHost.exchange.session.InRange ∧
    answeringHost.checkedExchanged damagedName = some (answeringHost.exchanged damagedName) ∧
    (answeringHost.exchanged damagedName).1.session.received = 0b1100 ∧
    (answeringHost.exchanged damagedName).1.server.players.map Player.name
      = ["Ca\uFFFD\\rol€"] := by
  have hmeets : Meets lastFirst answeringHost := .inl (List.get_mem _ _)
  obtain ⟨hrange, hpayload⟩ := codecs_in_range hmeets
  exact ⟨by decide +kernel, hmeets, hrange, (hpayload damagedName).1, by decide +kernel,
    by decide +kernel⟩

end Engine

end ServerProbe

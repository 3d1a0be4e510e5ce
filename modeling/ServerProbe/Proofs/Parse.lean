/-
Parsing as reading in one go.

What is left of a payload once it has been parsed is what reading it in one go and acting on
the reading comes to: the facts are learned up to the first that does not fit, and only if all
of them do, the ending counts (`Exchange.apply`). A parser is not made like that. It asks its
context for what it has learned itself, and it marks answers and hands out replies one step at a
time. So the two are compared along the steps of each parser (`Agrees`), and they come to the
same in the end (`Exchange.receive_eq`).
-/
import ServerProbe.Proofs.Protocol
import ServerProbe.Receipt

set_option autoImplicit false

namespace ServerProbe

/-! ## Acting on a reading -/

/-- The receipt of a payload with a fault. -/
def Receipt.ofFault (fault : Fault) : Receipt :=
  { outcome := fault.outcome, message := some fault.message }

namespace Exchange

/-- Ends a reading whose facts have been learned. -/
def conclude (x : Exchange) : Ending → Exchange × Receipt
  | .done answered sealing => (x, { outcome := .done sealing, answered })
  | .more resend => (x, { outcome := .inProgress, resend })
  | .piece series index count payload =>
    let (fragments, joined) := x.fragments.ingest series index count payload
    ({ x with fragments }, { outcome := .inProgress, completed := joined.toList })

/-- Acts on a payload that has been read. -/
def apply (policy : DuplicatePolicy) (x : Exchange) (reading : Reading) : Exchange × Receipt :=
  match x.learnAll policy reading.facts with
  | (x', some fault) => (x', .ofFault fault)
  | (x', none) =>
    match reading.ending with
    | .error fault => (x', .ofFault fault)
    | .ok ending => x'.conclude ending

end Exchange

/-- The conversation once a fact has been told. -/
def Session.noting (s : Session) : Fact → Session
  | .newcomer _ => { s with nextPlayer := s.nextPlayer + 1 }
  | .token value => { s with challenge := some value }
  | .revision value => { s with revision := some value }
  | .datagram number final => s.arrived number final
  | _ => s

namespace Exchange

/-! ## Learning -/

@[simp] theorem keep_session (x : Exchange) (kept : Except Fault Server) :
    (x.keep kept).1.session = x.session := by
  cases kept <;> rfl

@[simp] theorem keep_fragments (x : Exchange) (kept : Except Fault Server) :
    (x.keep kept).1.fragments = x.fragments := by
  cases kept <;> rfl

/-- **A fact does to the conversation what it says,** whether or not there is room for it. -/
theorem learn_session (policy : DuplicatePolicy) (x : Exchange) (f : Fact) :
    (x.learn policy f).1.session = x.session.noting f := by
  cases f with
  | rule name value => rw [learn, keep_session]; rfl
  | seen number => rw [learn, keep_session]; rfl
  | newcomer fields => rw [learn, keep_session]; rfl
  | _ => rfl

/-- What every fact keeps is kept by all of them. -/
theorem learnAll_keeps {policy : DuplicatePolicy} {x : Exchange} {P : Exchange → Prop}
    {facts : List Fact} (hlearn : ∀ x, ∀ f ∈ facts, P x → P (x.learn policy f).1) (h : P x) :
    P (x.learnAll policy facts).1 := by
  induction facts generalizing x with
  | nil => exact h
  | cons f rest ih =>
    have hfirst := hlearn x f List.mem_cons_self h
    rw [learnAll]
    rcases hf : x.learn policy f with ⟨x', _ | fault⟩
    · rw [hf] at hfirst
      exact ih (fun x g hg => hlearn x g (List.mem_cons_of_mem f hg)) hfirst
    · rw [hf] at hfirst
      exact hfirst

end Exchange

/-! ## Side by side -/

/-- What a parser that has come to its end has left. -/
def Parse.Step.result (step : Parse.Step Outcome) : Exchange × Receipt :=
  (step.settle.2.exchange, step.settle.2.receipt step.settle.1)

section Agrees

variable {x : Exchange} {params : RequestParams} {current : Option Phase} {sealed : PhaseSet}
  {α : Type}

/-- Whether a parser, in a context in which nothing has been parsed, comes to what a reader of
whole replies does if its reading is acted on. -/
def Agrees (x : Exchange) (params : RequestParams) (current : Option Phase) (sealed : PhaseSet)
    (m : Parse Outcome) (m' : Reply Ending) : Prop :=
  ∀ r, (m r (.start x params current sealed)).result
    = x.apply params.rulePolicy (m' r []).reading

theorem agrees_fail (fault : Fault) :
    Agrees x params current sealed (Parse.fail fault) (Reply.fail fault) :=
  fun _ => rfl

theorem agrees_ite {c : Prop} [Decidable c] {m₁ m₂ : Parse Outcome} {m₁' m₂' : Reply Ending}
    (h₁ : Agrees x params current sealed m₁ m₁') (h₂ : Agrees x params current sealed m₂ m₂') :
    Agrees x params current sealed (if c then m₁ else m₂) (if c then m₁' else m₂') := by
  split
  · exact h₁
  · exact h₂

theorem agrees_read {op : Reader.Read α} {k : α → Parse Outcome} {k' : α → Reply Ending}
    (h : ∀ a, Agrees x params current sealed (k a) (k' a)) :
    Agrees x params current sealed (Parse.read op >>= k) (Reply.read op >>= k') := by
  intro r
  change (Parse.bind _ _ _ _).result = x.apply _ (Reply.bind _ _ _ _).reading
  unfold Parse.bind Reply.bind Parse.read Reply.read
  rcases op r with e | ⟨a, r'⟩
  · rfl
  · exact h a r'

/-- A parser that asks for its context gets the one it was started in. -/
theorem agrees_context {k : Context → Parse Outcome} {m' : Reply Ending}
    (h : Agrees x params current sealed (k (.start x params current sealed)) m') :
    Agrees x params current sealed (Parse.context >>= k) m' :=
  h

theorem agrees_accept {phase : Phase} {k : Unit → Parse Outcome} {k' : Unit → Reply Ending}
    (h : Agrees x params current sealed (k ()) (k' ())) :
    Agrees x params current sealed (Parse.accept phase >>= k)
      (Reply.accept ⟨current, sealed, x.session⟩ phase >>= k') := by
  intro r
  change (Parse.bind _ _ _ _).result = _
  unfold Parse.bind Parse.accept
  by_cases hsealed : phase ∈ sealed
  · rw [if_pos (show phase ∈ (Context.start x params current sealed).sealed from hsealed),
      Reply.bind_accept_sealed hsealed]
    rfl
  · rw [if_neg (show phase ∉ (Context.start x params current sealed).sealed from hsealed),
      Reply.bind_accept_open hsealed]
    exact h r

/-- A reader that notes nothing leaves nothing to learn. -/
theorem agrees_silent {m : Reply α} {k : α → Parse Outcome} {k' : α → Reply Ending}
    (hm : Reply.Yields (fun _ => False) (fun _ => True) m)
    (h : ∀ a, Agrees x params current sealed (k a) (k' a)) :
    Agrees x params current sealed (Parse.learn m >>= k) (m >>= k') := by
  intro r
  have hrun := hm r []
  change (Parse.bind _ _ _ _).result = x.apply _ (Reply.bind _ _ _ _).reading
  unfold Parse.bind Reply.bind Parse.learn
  rcases hstep : m r [] with ⟨a, r', noted⟩ | ⟨fault, noted⟩
  · rw [hstep] at hrun
    obtain ⟨-, new, rfl, hnew⟩ := hrun
    obtain rfl : new = [] := List.eq_nil_iff_forall_not_mem.mpr hnew
    exact h a r'
  · rw [hstep] at hrun
    obtain ⟨new, rfl, hnew⟩ := hrun
    obtain rfl : new = [] := List.eq_nil_iff_forall_not_mem.mpr hnew
    rfl

/-- A parser that learns something and then comes to its end agrees with a reader that notes it
and names the ending, if it leaves in the context what the ending stands for. -/
theorem agrees_learn {m : Reply α} {k : α → Parse Outcome} {ending : α → Ending}
    (h : ∀ a r r' noted x', m r [] = .next a r' noted →
      x.learnAll params.rulePolicy noted.reverse = (x', none) →
      (k a r' (.start x' params current sealed)).result = x'.conclude (ending a)) :
    Agrees x params current sealed (Parse.learn m >>= k) (m >>= fun a => pure (ending a)) := by
  intro r
  change (Parse.bind _ _ _ _).result = x.apply _ (Reply.bind _ _ _ _).reading
  unfold Parse.bind Reply.bind Parse.learn
  rcases hstep : m r [] with ⟨a, r', noted⟩ | ⟨fault, noted⟩
  · rcases hlearn : x.learnAll params.rulePolicy noted.reverse with ⟨x', _ | misfit⟩
    · have hk := h a r r' noted x' hstep hlearn
      simp only [Context.learnAll, Context.start, hlearn] at hk ⊢
      rw [hk]
      change _ = x.apply _ ⟨noted.reverse, .ok (ending a)⟩
      rw [Exchange.apply, hlearn]
    · simp only [Context.learnAll, Context.start, hlearn]
      change _ = x.apply _ ⟨noted.reverse, .ok (ending a)⟩
      rw [Exchange.apply, hlearn]
      rfl
  · rcases hlearn : x.learnAll params.rulePolicy noted.reverse with ⟨x', _ | misfit⟩
    all_goals
      simp only [Context.learnAll, Context.start, hlearn]
      change _ = x.apply _ ⟨noted.reverse, .error fault⟩
      rw [Exchange.apply, hlearn]
      rfl

/-- A parser that learns a body and then counts phases as answered agrees with a reader that
ends with these phases. -/
theorem agrees_done {m : Reply α} {k : α → Parse Outcome} {answered : PhaseSet}
    (h : ∀ a r x', k a r (.start x' params current sealed)
      = .next (.done true) r { Context.start x' params current sealed with answered }) :
    Agrees x params current sealed (Parse.learn m >>= k)
      (m >>= fun _ => pure (.done answered true)) := by
  refine agrees_learn fun a r r' noted x' _ _ => ?_
  rw [h]
  rfl

/-- All parsers do the same with a token. -/
theorem agrees_takeToken (token : Int32) :
    Agrees x params current sealed (Parse.takeToken token)
      (if current = some .challenge then do
        Reply.accept ⟨current, sealed, x.session⟩ .challenge
        Reply.note (.token token)
        pure (.done (PhaseSet.ofList [.challenge]) true)
      else if x.session.challenge = some token then Reply.fail (.unexpected .challenge)
      else do
        Reply.note (.token token)
        pure (.more true)) := by
  refine agrees_context (agrees_ite (agrees_accept ?_) (agrees_ite (agrees_fail _) ?_))
  · exact agrees_done fun _ _ _ => rfl
  · exact agrees_learn fun _ _ _ _ _ _ _ => rfl

end Agrees

/-! ## The parsers -/

namespace Protocol

variable {x : Exchange} {params : RequestParams} {current : Option Phase} {sealed : PhaseSet}

/-! ### Source and GoldSrc -/

namespace A2s

theorem agrees_parseSplit :
    Agrees x params current sealed parseSplit (split ⟨current, sealed, x.session⟩) := by
  refine agrees_read fun series => agrees_ite (agrees_fail _) ?_
  refine agrees_context (agrees_silent (yields_place _ _) fun found => ?_)
  refine agrees_ite (agrees_fail _) ?_
  exact agrees_learn fun _ _ _ _ _ _ _ => rfl

theorem agrees_parseAnswer (phase : Phase) (body : Reply Unit) :
    Agrees x params current sealed (parseAnswer phase body)
      (answer ⟨current, sealed, x.session⟩ phase body) :=
  agrees_accept (agrees_done fun _ _ _ => rfl)

theorem agrees_parse :
    Agrees x params current sealed parse (reply ⟨current, sealed, x.session⟩) := by
  refine agrees_read fun marker => agrees_ite ?_ (agrees_ite agrees_parseSplit (agrees_fail _))
  refine agrees_read fun kind => agrees_ite (agrees_read agrees_takeToken) ?_
  refine agrees_ite (agrees_parseAnswer _ _) (agrees_ite (agrees_parseAnswer _ _) ?_)
  refine agrees_ite (agrees_parseAnswer _ _) (agrees_ite (agrees_parseAnswer _ _) ?_)
  exact agrees_fail _

end A2s

/-! ### The first GameSpy query -/

namespace GameSpy

open Reply

theorem bind_body (n : Numbering) (pairs : List Pair) (k : Unit → Reply Ending) :
    (note (.datagram n.number n.final) >>= fun _ => notePairs pairs >>= k)
      = body n pairs >>= k := by
  rw [body, bind_assoc]

/-- What pairs tell does not change the conversation. -/
theorem session_of_pairs (policy : DuplicatePolicy) (x : Exchange) {facts : List Fact}
    (h : ∀ f ∈ facts, TellsPair f) : (x.learnAll policy facts).1.session = x.session := by
  refine Exchange.learnAll_keeps (P := fun x' => x'.session = x.session) (fun x' f hf hx' => ?_) rfl
  rw [Exchange.learn_session, ← hx']
  obtain ⟨hstands, hnumber⟩ := h f hf
  cases hstands with
  | datagram number final => exact absurd rfl (hnumber number final)
  | _ => rfl

/-- The conversation after a datagram has been learned: its number has been seen. -/
theorem session_of_body {n : Numbering} {pairs : List Pair} {r r' : Reader} {noted : List Fact}
    {x' : Exchange} {policy : DuplicatePolicy} (h : body n pairs r [] = .next () r' noted)
    (hlearn : x.learnAll policy noted.reverse = (x', none)) :
    x'.session = x.session.arrived n.number n.final := by
  have hpairs := notes_notePairs pairs r [.datagram n.number n.final]
  rw [body, bind_note] at h
  rw [h] at hpairs
  obtain ⟨-, new, rfl, hnew⟩ := hpairs
  rw [List.reverse_append, List.reverse_singleton, List.singleton_append] at hlearn
  have hsession := session_of_pairs policy
    { x with session := x.session.arrived n.number n.final } fun f hf =>
      hnew f (List.mem_reverse.mp hf)
  change Exchange.learnAll policy { x with session := x.session.arrived n.number n.final } _ = _
    at hlearn
  rw [hlearn] at hsession
  exact hsession

theorem yields_ofExcept {α : Type} (value : Except Fault α) :
    Yields (fun _ => False) (fun _ => True) (ofExcept value) := by
  cases value with
  | ok a => exact yields_pure trivial
  | error fault => exact yields_fail fault

theorem agrees_parse :
    Agrees x params current sealed parse (reply ⟨current, sealed, x.session⟩) := by
  refine agrees_accept (agrees_silent yields_takeRest fun payload => ?_)
  refine agrees_silent (yields_ofExcept _) fun pairs => ?_
  refine agrees_silent (yields_ofExcept _) fun n => ?_
  refine agrees_context (agrees_ite (fun _ => rfl) ?_)
  -- the parser asks what it has just learned, the reader what it knew and has noted since
  have hpure : (if (x.session.arrived n.number n.final).isWhole then pure (.done answered true)
      else pure (.more false) : Reply Ending)
      = pure (if (x.session.arrived n.number n.final).isWhole then .done answered true
        else .more false) := by
    split
    · rfl
    · rfl
  simp only [hpure]
  rw [bind_body]
  refine agrees_learn fun _ r r' noted x' hbody hlearn => ?_
  rw [← session_of_body hbody hlearn]
  change ((if x'.session.isWhole = true then _ else _ : Parse Outcome) r' _).result = _
  rcases x'.session.isWhole with _ | _
  · rfl
  · rfl

end GameSpy

/-! ### Quake 3 -/

namespace Quake3

theorem yields_expectResponse :
    Reply.Yields (fun _ => False) (fun _ => True) expectResponse := by
  intro r noted
  unfold expectResponse
  rcases r.expect responseWord with e | ⟨_, r'⟩
  · exact ⟨[], rfl, by simp⟩
  · exact ⟨trivial, [], rfl, by simp⟩

theorem agrees_parse :
    Agrees x params current sealed parse (reply ⟨current, sealed, x.session⟩) := by
  refine agrees_read fun _ => agrees_silent yields_expectResponse fun _ => ?_
  refine agrees_accept (agrees_silent Reply.yields_takeRest fun body => ?_)
  exact agrees_done fun _ _ _ => rfl

end Quake3

/-! ### The fourth GameSpy query -/

namespace GameSpy4

theorem agrees_parse :
    Agrees x params current sealed parse (reply ⟨current, sealed, x.session⟩) := by
  refine agrees_read fun kind => agrees_read fun id => agrees_context ?_
  refine agrees_ite (agrees_fail _) (agrees_ite ?_ (agrees_ite ?_ (agrees_fail _)))
  · exact agrees_read fun text => agrees_silent (Reply.yields_require _ _) agrees_takeToken
  · exact agrees_accept (agrees_done fun _ _ _ => rfl)

end GameSpy4

/-- Every parser comes to what reading in one go does. -/
theorem agrees_parse (p : Protocol) :
    Agrees x params current sealed p.parse (p.reply ⟨current, sealed, x.session⟩) := by
  cases p with
  | a2s => exact A2s.agrees_parse
  | gamespy => exact GameSpy.agrees_parse
  | q3 => exact Quake3.agrees_parse
  | gs4 => exact GameSpy4.agrees_parse

end Protocol

/-- **Parsing is reading in one go and acting on it.** -/
theorem Exchange.receive_eq (x : Exchange) (p : Protocol) (params : RequestParams)
    (current : Option Phase) (sealed : PhaseSet) (payload : List UInt8) :
    x.receive p params current sealed payload
      = x.apply params.rulePolicy (p.read ⟨current, sealed, x.session⟩ payload) := by
  rw [Protocol.read, Reply.readAll_eq]
  exact p.agrees_parse (Reader.ofPayload payload)

/-- Of the options of a query only what is done with rules that are known matters to a payload. -/
theorem Exchange.receive_params (x : Exchange) (p : Protocol) {params params' : RequestParams}
    (h : params.rulePolicy = params'.rulePolicy) (current : Option Phase) (sealed : PhaseSet)
    (payload : List UInt8) :
    x.receive p params current sealed payload = x.receive p params' current sealed payload := by
  rw [receive_eq, receive_eq, h]

end ServerProbe

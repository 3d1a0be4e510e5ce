/-
What stops a reader.

A reader of replies stops where the payload breaks off or says something that cannot be, or at
once, because the reply is not welcome. It never stops for want of room: how much is kept of
what a server tells is the business of learning, not of reading (`Protocol.read_roomy`).

`StopsWith P` says that whatever stops a reader satisfies `P`, and goes through `bind`. What
is read of a reply after it has been accepted stops only with a fault that lies in the payload
(`Fault.InPayload`); the refusals come before that.
-/
import ServerProbe.Proofs.Protocol

set_option autoImplicit false

namespace ServerProbe

open Reply

/-! ## Faults of payloads -/

namespace Fault

/-- Whether a fault lies in the payload itself: it breaks off, or says something that cannot
be. -/
def InPayload : Fault → Prop
  | unexpected _ => False
  | overLimit _ => False
  | _ => True

variable {fault : Fault}

theorem InPayload.isFatal (h : fault.InPayload) : fault.kind.isFatal = true := by
  cases fault with
  | unexpected phase => exact h.elim
  | overLimit text => exact h.elim
  | _ => rfl

theorem InPayload.ne_outOfMemory (h : fault.InPayload) : fault.kind ≠ .outOfMemory := by
  cases fault with
  | unexpected phase => exact h.elim
  | overLimit text => exact h.elim
  | _ => nofun

end Fault

/-! ## Readers and what stops them -/

namespace Reply

variable {α β : Type} {P : Fault → Prop}

/-- Whether whatever stops a reader satisfies a condition. -/
def StopsWith (P : Fault → Prop) (m : Reply α) : Prop :=
  ∀ r noted fault noted', m r noted = .stop fault noted' → P fault

/-- A reader that never stops for want of room. -/
abbrev Roomy (m : Reply α) : Prop := StopsWith (fun fault => fault.kind ≠ .outOfMemory) m

theorem StopsWith.mono {Q : Fault → Prop} {m : Reply α} (h : StopsWith P m)
    (hPQ : ∀ fault, P fault → Q fault) : StopsWith Q m :=
  fun r noted fault noted' hstop => hPQ fault (h r noted fault noted' hstop)

theorem StopsWith.roomy {m : Reply α} (h : StopsWith Fault.InPayload m) : Roomy m :=
  h.mono fun _ => Fault.InPayload.ne_outOfMemory

@[simp] theorem stops_pure (a : α) : StopsWith P (pure a : Reply α) := nofun

@[simp] theorem stops_fail {fault : Fault} (h : P fault) : StopsWith P (fail fault : Reply α) := by
  intro r noted fault' noted' hstop
  cases hstop
  exact h

@[simp] theorem stops_bind {m : Reply α} {k : α → Reply β} (hm : StopsWith P m)
    (hk : ∀ a, StopsWith P (k a)) : StopsWith P (m >>= k) := by
  intro r noted fault noted' hstop
  rcases h : m r noted with ⟨a, r₁, noted₁⟩ | ⟨fault₁, noted₁⟩
  · rw [bind_next h] at hstop
    exact hk a r₁ noted₁ fault noted' hstop
  · rw [bind_stop h] at hstop
    cases hstop
    exact hm r noted fault noted' h

@[simp] theorem stops_ite {c : Prop} [Decidable c] {m₁ m₂ : Reply α} (h₁ : StopsWith P m₁)
    (h₂ : StopsWith P m₂) : StopsWith P (if c then m₁ else m₂) := by
  split
  · exact h₁
  · exact h₂

theorem stops_read (hunreadable : ∀ e, P (.unreadable e)) (op : Reader.Read α) :
    StopsWith P (read op) := by
  intro r noted fault noted' hstop
  unfold read at hstop
  rcases hop : op r with e | ⟨a, r'⟩
  · rw [hop] at hstop
    cases hstop
    exact hunreadable e
  · rw [hop] at hstop
    cases hstop

/-- What cannot be read is a fault of the payload. -/
@[simp] theorem stops_read_inPayload (op : Reader.Read α) :
    StopsWith Fault.InPayload (read op) :=
  stops_read (fun _ => trivial) op

@[simp] theorem stops_require {value : Option α} {fault : Fault} (h : P fault) :
    StopsWith P (require value fault) := by
  cases value with
  | none => exact stops_fail h
  | some a => exact stops_pure a

@[simp] theorem stops_note (fact : Fact) : StopsWith P (note fact) := nofun

@[simp] theorem stops_peek? : StopsWith P peek? := nofun

@[simp] theorem stops_takeRest : StopsWith P takeRest := nofun

/-- A refusal is not for want of room. -/
theorem roomy_accept (s : Situation) (phase : Phase) : Roomy (accept s phase) := by
  unfold accept
  exact stops_ite (stops_fail nofun) (stops_pure ())

/-- Reading on after what never stops for want of room. -/
theorem roomy_read {op : Reader.Read α} {k : α → Reply β} (hk : ∀ a, Roomy (k a)) :
    Roomy (read op >>= k) :=
  stops_bind (stops_read (fun _ => nofun) op) hk

/-- What is done with a token. -/
theorem roomy_token (s : Situation) (token : Int32) :
    Roomy (if s.current = some .challenge then do
        accept s .challenge
        note (.token token)
        pure (.done (PhaseSet.ofList [.challenge]) true)
      else if s.session.challenge = some token then fail (.unexpected .challenge)
      else do
        note (.token token)
        pure (.more true) : Reply Ending) := by
  have hnoted : ∀ ending : Ending, Roomy (note (.token token) >>= fun _ => pure ending) :=
    fun ending => stops_bind (stops_note _) fun _ => stops_pure ending
  refine stops_ite (stops_bind (roomy_accept s .challenge) fun _ => hnoted _) ?_
  exact stops_ite (stops_fail nofun) (hnoted _)

end Reply

/-! ## The readers of the protocols -/

namespace Protocol

/-! ### Source and GoldSrc -/

namespace A2s

@[simp] theorem stops_noteOs {P : Fault → Prop} (environment : UInt8) :
    StopsWith P (noteOs environment) := by
  unfold noteOs
  split
  · exact stops_note _
  · exact stops_pure _

theorem stops_compactStatus (name map : String) :
    StopsWith Fault.InPayload (compactStatus name map) := by
  unfold compactStatus noteRule noteNumber
  repeat' with_reducible refine stops_bind ?_ fun _ => ?_
  all_goals simp

theorem stops_extraFields : StopsWith Fault.InPayload extraFields := by
  unfold extraFields noteRule noteNumber
  refine stops_bind stops_peek? fun flags => ?_
  rcases flags with _ | flags
  · exact stops_pure _
  · repeat' with_reducible first | refine stops_bind ?_ fun _ => ?_ | refine stops_ite ?_ ?_
    all_goals simp

theorem stops_sourceStatus (protocol : UInt8) (name map : String) :
    StopsWith Fault.InPayload (sourceStatus protocol name map) := by
  unfold sourceStatus noteRule noteNumber
  repeat' with_reducible first | refine stops_bind ?_ fun _ => ?_ | refine stops_ite ?_ ?_
  all_goals first | exact stops_extraFields | simp

theorem stops_status : StopsWith Fault.InPayload status := by
  unfold status
  repeat' with_reducible refine stops_bind ?_ fun _ => ?_
  case refine_2.refine_2.refine_2 =>
    exact stops_ite (stops_compactStatus _ _) (stops_sourceStatus _ _ _)
  all_goals exact stops_read_inPayload _

theorem stops_modification : StopsWith Fault.InPayload modification := by
  unfold modification noteRule noteNumber
  repeat' with_reducible refine stops_bind ?_ fun _ => ?_
  all_goals simp

theorem stops_goldSrcStatus : StopsWith Fault.InPayload goldSrcStatus := by
  unfold goldSrcStatus noteRule noteNumber
  repeat' with_reducible first | refine stops_bind ?_ fun _ => ?_ | refine stops_ite ?_ ?_
  all_goals first | exact stops_modification | simp

theorem stops_rules (count : Nat) : StopsWith Fault.InPayload (rules count) := by
  induction count with
  | zero => exact stops_pure _
  | succ count ih =>
    refine stops_bind (stops_read_inPayload _) fun name => ?_
    refine stops_bind (stops_read_inPayload _) fun value => ?_
    exact stops_bind (stops_note _) fun _ => ih

theorem stops_players (count : Nat) : StopsWith Fault.InPayload (players count) := by
  induction count with
  | zero => exact stops_pure _
  | succ count ih =>
    unfold players
    repeat' with_reducible refine stops_bind ?_ fun _ => ?_
    all_goals first | exact ih | simp

theorem stops_place (revision : Option UInt8) : StopsWith Fault.InPayload (place revision) := by
  unfold place
  repeat' with_reducible first | refine stops_bind ?_ fun _ => ?_ | refine stops_ite ?_ ?_
  all_goals simp

/-- A piece of a split reply is never refused. -/
theorem stops_split (s : Situation) : StopsWith Fault.InPayload (split s) := by
  unfold split
  refine stops_bind (stops_read_inPayload _) fun series => stops_ite (stops_fail trivial) ?_
  refine stops_bind (stops_place _) fun found => stops_ite (stops_fail trivial) ?_
  exact stops_bind stops_takeRest fun _ => stops_pure _

theorem roomy_answer {s : Situation} {phase : Phase} {body : Reply Unit}
    (hbody : StopsWith Fault.InPayload body) : Roomy (answer s phase body) :=
  stops_bind (roomy_accept s phase) fun _ => stops_bind hbody.roomy fun _ => stops_pure _

theorem roomy_single (s : Situation) : Roomy (single s) := by
  refine roomy_read fun kind => stops_ite (roomy_read fun token => roomy_token s token) ?_
  refine stops_ite (roomy_answer (stops_bind stops_status fun _ => stops_note _)) ?_
  refine stops_ite (roomy_answer (stops_bind stops_goldSrcStatus fun _ => stops_note _)) ?_
  refine stops_ite (roomy_answer ?_) (stops_ite (roomy_answer ?_) (stops_fail nofun))
  · exact stops_bind (stops_read_inPayload _) fun _ => stops_rules _
  · exact stops_bind (stops_read_inPayload _) fun _ => stops_players _

theorem roomy_reply (s : Situation) : Roomy (reply s) := by
  refine roomy_read fun marker => stops_ite (roomy_single s) ?_
  exact stops_ite (stops_split s).roomy (stops_fail nofun)

end A2s

/-! ### The first GameSpy query -/

namespace GameSpy

theorem stops_ofExcept {α : Type} {P : Fault → Prop} {value : Except Fault α}
    (h : ∀ fault, value = .error fault → P fault) : StopsWith P (ofExcept value) := by
  cases value with
  | ok a => exact stops_pure a
  | error fault => exact stops_fail (h fault rfl)

/-- Only an empty key is a fault of a list of pieces. -/
theorem inPayload_of_pairsOf {found : List Pair} {place : Place} {pieces : List (List Char)}
    {fault : Fault} (h : pairsOf found place pieces = .error fault) : fault.InPayload := by
  fun_induction pairsOf found place pieces with
  | case3 =>
    cases h
    trivial
  | case5 _ _ _ _ _ _ ih => exact ih h
  | case7 _ _ _ _ _ ih => exact ih h
  | case8 _ _ _ _ _ ih => exact ih h
  | case10 _ _ _ _ _ _ ih => exact ih h
  | case12 _ _ _ _ _ _ _ ih => exact ih h
  | _ => cases h

theorem inPayload_of_splitPairs {text : List Char} {fault : Fault}
    (h : splitPairs text = .error fault) : fault.InPayload := by
  unfold splitPairs at h
  split at h
  · cases h
    trivial
  · exact inPayload_of_pairsOf h

theorem inPayload_of_packetNumber {value : List Char} {fault : Fault}
    (h : packetNumber value = .error fault) : fault.InPayload := by
  unfold packetNumber at h
  split at h
  · cases h
  · split at h
    · cases h
    · cases h
      trivial

theorem inPayload_of_step {n : Numbering} {pair : Pair} {fault : Fault}
    (h : n.step pair = .error fault) : fault.InPayload := by
  unfold Numbering.step at h
  split at h
  · rcases hnumber : packetNumber pair.2 with fault' | number
    · rw [hnumber] at h
      obtain rfl : fault' = fault := Except.error.inj h
      exact inPayload_of_packetNumber hnumber
    · rw [hnumber] at h
      cases h
  · split at h
    · cases h
    · cases h

theorem inPayload_of_numbering {pairs : List Pair} {fault : Fault}
    (h : numbering pairs = .error fault) : fault.InPayload := by
  -- by induction on the pairs, whatever has been found before
  have along : ∀ (pairs : List Pair) (n : Numbering),
      pairs.foldlM Numbering.step n = .error fault → fault.InPayload := by
    intro pairs
    induction pairs with
    | nil => nofun
    | cons pair rest ih =>
      intro n hfold
      rw [List.foldlM_cons] at hfold
      rcases hstep : n.step pair with fault' | n'
      · rw [hstep] at hfold
        obtain rfl : fault' = fault := Except.error.inj hfold
        exact inPayload_of_step hstep
      · rw [hstep] at hfold
        exact ih n' hfold
  exact along pairs {} h

theorem stops_notePlayerField (field : String) (number : Int32) (value : List Char) :
    StopsWith Fault.InPayload (notePlayerField field number value) := by
  unfold notePlayerField
  refine stops_bind (stops_note _) fun _ => ?_
  dsimp only
  split
  case h_6 =>
    split
    · exact stops_note _
    · exact stops_note _
  all_goals
    repeat' with_reducible refine stops_bind ?_ fun _ => ?_
    all_goals first | exact stops_require trivial | exact stops_note _

theorem stops_notePair (pair : Pair) : StopsWith Fault.InPayload (notePair pair) := by
  obtain ⟨key, value⟩ := pair
  unfold notePair
  dsimp only
  split
  case h_8 =>
    split
    · exact stops_notePlayerField _ _ _
    · exact stops_note _
  all_goals
    repeat' with_reducible refine stops_bind ?_ fun _ => ?_
    all_goals first | exact stops_require trivial | simp

theorem stops_notePairs (pairs : List Pair) : StopsWith Fault.InPayload (notePairs pairs) := by
  induction pairs with
  | nil => exact stops_pure ()
  | cons pair rest ih => exact stops_bind (stops_notePair pair) fun _ => ih

theorem roomy_reply (s : Situation) : Roomy (reply s) := by
  refine stops_bind (roomy_accept s .status) fun _ => stops_bind stops_takeRest fun payload => ?_
  refine StopsWith.roomy (stops_bind (stops_ofExcept fun _ => inPayload_of_splitPairs) ?_)
  refine fun pairs => stops_bind (stops_ofExcept fun _ => inPayload_of_numbering) fun n => ?_
  refine stops_ite (stops_pure _) (stops_bind (stops_note _) fun _ => ?_)
  exact stops_bind (stops_notePairs pairs) fun _ => stops_ite (stops_pure _) (stops_pure _)

end GameSpy

/-! ### Quake 3 -/

namespace Quake3

theorem stops_noteKnown (key value : List Char) :
    StopsWith Fault.InPayload (noteKnown key value) := by
  unfold noteKnown
  dsimp only
  split
  all_goals
    repeat' with_reducible refine stops_bind ?_ fun _ => ?_
    all_goals first | exact stops_require trivial | simp

theorem stops_noteVariables (tokens : List (List Char)) :
    StopsWith Fault.InPayload (noteVariables tokens) := by
  fun_induction noteVariables tokens with
  | case1 => exact stops_pure _
  | case2 => exact stops_pure _
  | case3 => exact stops_fail trivial
  | case4 key value rest hempty ih => exact ih
  | case5 key value rest hempty ih =>
    refine stops_bind (stops_noteKnown key value) fun _ => ?_
    exact stops_bind (stops_note _) fun _ => ih

theorem stops_notePlayers (lines : List (List Char)) :
    StopsWith Fault.InPayload (notePlayers lines) := by
  induction lines with
  | nil => exact stops_pure _
  | cons line rest ih =>
    refine stops_bind (stops_bind (stops_require trivial) fun _ => ?_) fun _ => ih
    exact stops_note _

theorem stops_noteLines (lines : List (List Char)) :
    StopsWith Fault.InPayload (noteLines lines) := by
  cases lines with
  | nil => exact stops_fail trivial
  | cons info lines =>
    refine stops_bind (stops_noteVariables _) fun _ => ?_
    exact stops_bind (stops_notePlayers _) fun _ => stops_note _

theorem stops_expectResponse : StopsWith Fault.InPayload expectResponse := by
  intro r noted fault noted' h
  unfold expectResponse at h
  split at h
  · cases h
  · cases h
    trivial

theorem roomy_reply (s : Situation) : Roomy (reply s) := by
  refine roomy_read fun _ => stops_bind stops_expectResponse.roomy fun _ => ?_
  refine stops_bind (roomy_accept s .status) fun _ => stops_bind stops_takeRest fun _ => ?_
  exact stops_bind (stops_noteLines _).roomy fun _ => stops_pure _

end Quake3

/-! ### The fourth GameSpy query -/

namespace GameSpy4

theorem stops_notePair (key value : String) : StopsWith Fault.InPayload (notePair key value) := by
  unfold notePair number
  split
  all_goals
    repeat' with_reducible refine stops_bind ?_ fun _ => ?_
    all_goals first | exact stops_require trivial | simp

theorem stops_notePairs (rounds : Nat) : StopsWith Fault.InPayload (notePairs rounds) := by
  induction rounds with
  | zero => exact stops_pure _
  | succ rounds ih =>
    refine stops_bind (stops_read_inPayload _) fun key => stops_ite (stops_pure _) ?_
    refine stops_bind (stops_read_inPayload _) fun value => ?_
    exact stops_bind (stops_notePair key value) fun _ => ih

theorem stops_noteNames (rounds : Nat) : StopsWith Fault.InPayload (noteNames rounds) := by
  induction rounds with
  | zero => exact stops_pure _
  | succ rounds ih =>
    refine stops_bind (stops_read_inPayload _) fun name => stops_ite (stops_pure _) ?_
    exact stops_bind (stops_note _) fun _ => ih

theorem stops_forAll {P : Fault → Prop} {rounds : Nat → Reply Unit}
    (h : ∀ n, StopsWith P (rounds n)) : StopsWith P (forAll rounds) :=
  fun r noted => h (r.remaining + 1) r noted

theorem stops_fullStatus : StopsWith Fault.InPayload fullStatus := by
  unfold fullStatus
  refine stops_bind (stops_read_inPayload _) fun _ => ?_
  refine stops_bind (stops_forAll stops_notePairs) fun _ => ?_
  exact stops_bind (stops_read_inPayload _) fun _ => stops_forAll stops_noteNames

theorem roomy_reply (s : Situation) : Roomy (reply s) := by
  refine roomy_read fun kind => roomy_read fun id => stops_ite (stops_fail nofun) ?_
  refine stops_ite ?_ (stops_ite ?_ (stops_fail nofun))
  · exact roomy_read fun text => stops_bind (stops_require nofun) fun token => roomy_token s token
  · refine stops_bind (roomy_accept s .status) fun _ => ?_
    exact stops_bind stops_fullStatus.roomy fun _ => stops_pure _

end GameSpy4

/-! ### All protocols -/

theorem roomy_reply (p : Protocol) (s : Situation) : Roomy (p.reply s) := by
  cases p with
  | a2s => exact A2s.roomy_reply s
  | gamespy => exact GameSpy.roomy_reply s
  | q3 => exact Quake3.roomy_reply s
  | gs4 => exact GameSpy4.roomy_reply s

/-- **Reading never runs out of room.** -/
theorem read_roomy {p : Protocol} {s : Situation} {payload : List UInt8} {fault : Fault}
    (h : (p.read s payload).ending = .error fault) : fault.kind ≠ .outOfMemory := by
  have hroomy := p.roomy_reply s (Reader.ofPayload payload) []
  rw [read, readAll_eq] at h
  rcases hrun : p.reply s (Reader.ofPayload payload) [] with ⟨ending, r, noted⟩ | ⟨stop, noted⟩
  · rw [hrun] at h
    cases h
  · rw [hrun] at h
    obtain rfl : stop = fault := Except.error.inj h
    exact hroomy stop noted hrun

end Protocol

end ServerProbe

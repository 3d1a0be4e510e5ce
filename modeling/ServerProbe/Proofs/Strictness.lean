/-
Readers that need all that they pass.

A reader is strict if, whatever it has come through, it has needed every octet on the way: cut
short anywhere, the same octets would have been found wanting. Strictness goes through `bind`,
so nearly all readers of replies are strict because the primitive reads are. The others are
those that look whether anything is left: the fields that may follow a status in the Source
layout, and the pieces of a split reply.

The readers of a Minecraft status go round as often as there are octets left, so how often
depends on what follows. `Rounds` says of such a repetition what `Needs` says of a reader, for
any number of rounds that is large enough.
-/
import ServerProbe.Proofs.Layout
import ServerProbe.Proofs.Replies

set_option autoImplicit false

namespace ServerProbe

namespace Reply

variable {α β : Type}

/-! ## Strictness -/

/-- If the reader comes through from `r`, it has needed all octets that it has passed. -/
def StrictAt (m : Reply α) (r : Reader) : Prop :=
  ∀ noted a r' noted', m r noted = .next a r' noted' →
    ∃ octets facts, r.rest = octets ++ r'.rest ∧ noted' = facts.reverse ++ noted ∧
      Needs m octets a facts

/-- Whatever the reader comes through, it has needed. -/
def Strict (m : Reply α) : Prop := ∀ r, StrictAt m r

theorem strictAt_bind {m : Reply α} {k : α → Reply β} {r : Reader} (hm : StrictAt m r)
    (hk : ∀ noted a r' noted', m r noted = .next a r' noted' → StrictAt (k a) r') :
    StrictAt (m >>= k) r := by
  intro noted b r₂ noted₂ h
  obtain ⟨a, r₁, noted₁, hfirst, hnext⟩ := bind_eq_next_iff.mp h
  obtain ⟨octets, facts, hrest, rfl, hneeds⟩ := hm noted a r₁ noted₁ hfirst
  obtain ⟨octets', facts', hrest', rfl, hneeds'⟩ := hk noted a r₁ _ hfirst _ b r₂ noted₂ hnext
  refine ⟨octets ++ octets', facts ++ facts', ?_, ?_, hneeds.bind hneeds'⟩
  · rw [hrest, hrest', List.append_assoc]
  · rw [List.reverse_append, List.append_assoc]

@[simp] theorem strict_bind {m : Reply α} {k : α → Reply β} (hm : Strict m)
    (hk : ∀ a, Strict (k a)) : Strict (m >>= k) :=
  fun r => strictAt_bind (hm r) fun _ a r' _ _ => hk a r'

@[simp] theorem strict_ite {c : Prop} [Decidable c] {m₁ m₂ : Reply α} (h₁ : Strict m₁)
    (h₂ : Strict m₂) : Strict (if c then m₁ else m₂) := by
  split
  · exact h₁
  · exact h₂

@[simp] theorem strict_pure (a : α) : Strict (pure a : Reply α) := by
  rintro r noted b r' noted' ⟨⟩
  exact ⟨[], [], rfl, rfl, needs_pure a⟩

@[simp] theorem strict_fail (fault : Fault) : Strict (fail fault : Reply α) :=
  fun _ _ _ _ _ h => nomatch h

@[simp] theorem strict_note (fact : Fact) : Strict (note fact) := by
  rintro r noted b r' noted' ⟨⟩
  exact ⟨[], [fact], rfl, rfl, needs_note fact⟩

@[simp] theorem strict_require (value : Option α) (fault : Fault) :
    Strict (require value fault) := by
  cases value with
  | none => exact strict_fail fault
  | some a => exact strict_pure a

@[simp] theorem strict_accept (s : Situation) (phase : Phase) : Strict (accept s phase) := by
  unfold accept
  exact strict_ite (strict_fail _) (strict_pure ())

/-! ### The primitive reads -/

/-- A read that passes what it needs is strict. -/
theorem strict_read {op : Reader.Read α}
    (h : ∀ r a r', op r = .ok (a, r') →
      ∃ octets, r.rest = octets ++ r'.rest ∧ Needs (read op) octets a []) : Strict (read op) := by
  intro r noted a r' noted' hrun
  obtain ⟨hread, rfl⟩ := read_eq_next_iff.mp hrun
  obtain ⟨octets, hrest, hneeds⟩ := h r a r' hread
  exact ⟨octets, [], hrest, rfl, hneeds⟩

/-- What is made of a fixed number of octets is read strictly. -/
theorem strict_fixed (width : Nat) {op : Reader.Read α} {g : List UInt8 → α}
    (h : ∀ r, op r = (r.bytes width).map fun (piece, after) => (g piece, after)) :
    Strict (read op) := by
  refine strict_read fun r a r' hread => ?_
  rw [h] at hread
  obtain ⟨piece, hbytes, rfl⟩ := Reader.map_eq_ok_iff.mp hread
  obtain ⟨hle, rfl, rfl⟩ := Reader.bytes_eq_ok_iff.mp hbytes
  refine ⟨r.rest.take width, (List.take_append_drop _ _).symm, needs_fixed fun r₁ => ?_⟩
  rw [h, List.length_take_of_le hle]

theorem strict_littleEndian {op : Reader.Read α} {g : Nat → α} {width : Nat}
    (h : ∀ r, op r = (r.littleEndian width).map fun (n, after) => (g n, after)) :
    Strict (read op) :=
  strict_fixed width (g := fun piece => g (Octets.ofLittleEndian piece)) fun r => by
    rw [h, Reader.littleEndian]
    cases r.bytes width <;> rfl

@[simp] theorem strict_skip (n : Nat) : Strict (read (Reader.skip n)) :=
  strict_fixed n (g := fun _ => ()) fun _ => rfl

@[simp] theorem strict_uint8 : Strict (read Reader.uint8) := strict_littleEndian fun _ => rfl

@[simp] theorem strict_uint16LE : Strict (read Reader.uint16LE) := strict_littleEndian fun _ => rfl

@[simp] theorem strict_uint32LE : Strict (read Reader.uint32LE) := strict_littleEndian fun _ => rfl

@[simp] theorem strict_uint64LE : Strict (read Reader.uint64LE) := strict_littleEndian fun _ => rfl

@[simp] theorem strict_int32LE : Strict (read Reader.int32LE) :=
  strict_littleEndian (g := fun n => (UInt32.ofNat n).toInt32) fun _ => rfl

@[simp] theorem strict_int32BE : Strict (read Reader.int32BE) :=
  strict_fixed 4 (g := fun piece => (UInt32.ofNat (Octets.ofBigEndian piece)).toInt32)
    fun r => by
      rw [Reader.int32BE, Reader.bigEndian]
      cases r.bytes 4 <;> rfl

/-- The octets of a text that was read. -/
theorem piece_of_cstring {text : String} {r r' : Reader} (h : r.cstring = .ok (text, r')) :
    ∃ p : Piece, r.rest = p.ended ++ r'.rest ∧ text = p.text := by
  obtain ⟨piece, after, hrest, hfree, rfl, rfl⟩ := Reader.cstring_eq_ok_iff.mp h
  refine ⟨⟨piece, hfree⟩, ?_, rfl⟩
  rw [hrest, Piece.ended, List.append_assoc, List.singleton_append]

@[simp] theorem strict_cstring : Strict (read Reader.cstring) := by
  refine strict_read fun r text r' hread => ?_
  obtain ⟨p, hrest, rfl⟩ := piece_of_cstring hread
  exact ⟨p.ended, hrest, needs_cstring p⟩

section Fields

variable {r r' : Reader} {noted noted' : List Fact} {b : β}

theorem octet_of_bind {k : UInt8 → Reply β}
    (h : (read Reader.uint8 >>= k) r noted = .next b r' noted') :
    ∃ value r₁, r.rest = value :: r₁.rest ∧ k value r₁ noted = .next b r' noted' := by
  obtain ⟨value, r₁, noted₁, hread, hnext⟩ := bind_eq_next_iff.mp h
  obtain ⟨hvalue, rfl⟩ := read_eq_next_iff.mp hread
  obtain ⟨rest, hrest, rfl⟩ := Reader.uint8_eq_ok_iff.mp hvalue
  exact ⟨value, _, hrest, hnext⟩

theorem text_of_bind {k : String → Reply β}
    (h : (read Reader.cstring >>= k) r noted = .next b r' noted') :
    ∃ (p : Piece) (r₁ : Reader), r.rest = p.ended ++ r₁.rest ∧
      k p.text r₁ noted = .next b r' noted' := by
  obtain ⟨text, r₁, noted₁, hread, hnext⟩ := bind_eq_next_iff.mp h
  obtain ⟨htext, rfl⟩ := read_eq_next_iff.mp hread
  obtain ⟨p, hrest, rfl⟩ := piece_of_cstring htext
  exact ⟨p, r₁, hrest, hnext⟩

end Fields

@[simp] theorem strict_expect (marker : List UInt8) : Strict (read (Reader.expect marker)) := by
  refine strict_read fun r a r' hread => ⟨marker, ?_, needs_expect marker⟩
  rw [Reader.expect] at hread
  rcases hbytes : r.bytes marker.length with e | ⟨actual, after⟩
  · rw [hbytes] at hread
    cases hread
  · rw [hbytes] at hread
    dsimp only at hread
    have hrest : r.rest = actual ++ after.rest := by
      obtain ⟨-, rfl, rfl⟩ := Reader.bytes_eq_ok_iff.mp hbytes
      exact (List.take_append_drop _ _).symm
    by_cases hmarker : actual = marker
    · rw [if_pos hmarker] at hread
      obtain rfl : after = r' := congrArg Prod.snd (Except.ok.inj hread)
      rw [hrest, hmarker]
    · rw [if_neg hmarker] at hread
      cases hread

end Reply

namespace Protocol

open Reply

/-! ## Source and GoldSrc -/

namespace A2s

@[simp] theorem strict_noteOs (environment : UInt8) : Strict (noteOs environment) := by
  unfold noteOs
  rcases osName? environment with _ | os
  · exact strict_pure ()
  · exact strict_note _

@[simp] theorem strict_noteRule (name value : String) : Strict (noteRule name value) :=
  strict_note _

@[simp] theorem strict_noteNumber (name : String) (value : Nat) :
    Strict (noteNumber name value) :=
  strict_note _

theorem three_of_skip {r r' : Reader} (h : r.skip 3 = .ok ((), r')) :
    ∃ a b c, r.rest = a :: b :: c :: r'.rest := by
  obtain ⟨piece, hbytes, -⟩ := Reader.map_eq_ok_iff (g := fun _ => ()).mp h
  obtain ⟨hle, -, rfl⟩ := Reader.bytes_eq_ok_iff.mp hbytes
  match hrest : r.rest, hle with
  | a :: b :: c :: rest, _ => exact ⟨a, b, c, rfl⟩

/-- What is read as the head of a status in the Source layout was written as one. -/
theorem exists_sourceHead {r r' : Reader} {noted noted' : List Fact} (hknown : r.peek? ≠ some 0)
    (h : statusHead r noted = .next () r' noted') :
    ∃ head : SourceHead, r.rest = head.octets ++ r'.rest := by
  have hhead := h
  unfold statusHead sourceHead at h
  obtain ⟨protocol, r₁, hprotocol, h⟩ := octet_of_bind h
  obtain ⟨name, r₂, hname, h⟩ := text_of_bind h
  obtain ⟨map, r₃, hmap, h⟩ := text_of_bind h
  obtain ⟨folder, r₄, hfolder, h⟩ := text_of_bind h
  obtain ⟨game, r₅, hgame, h⟩ := text_of_bind h
  obtain ⟨appId, r₆, noted₆, hread, h⟩ := bind_eq_next_iff.mp h
  have happId := Reader.rest_of_uint16LE (read_eq_next_iff.mp hread).1
  obtain ⟨numPlayers, r₇, hnumPlayers, h⟩ := octet_of_bind h
  obtain ⟨maxPlayers, r₈, hmaxPlayers, h⟩ := octet_of_bind h
  obtain ⟨bots, r₉, hbots, h⟩ := octet_of_bind h
  obtain ⟨serverType, r₁₀, hserverType, h⟩ := octet_of_bind h
  obtain ⟨environment, r₁₁, henvironment, h⟩ := octet_of_bind h
  obtain ⟨visibility, r₁₂, hvisibility, h⟩ := octet_of_bind h
  obtain ⟨secure, r₁₃, hsecure, h⟩ := octet_of_bind h
  -- what one game adds, then the version
  obtain ⟨ship, version, r₁₅, hlast⟩ : ∃ (ship : UInt8 × UInt8 × UInt8) (version : Piece)
      (r₁₅ : Reader), r₁₃.rest
        = (if appId = 2400 then [ship.1, ship.2.1, ship.2.2] else []) ++ (version.ended
          ++ r₁₅.rest) := by
    dsimp only at h
    by_cases hship : appId = 2400
    · simp only [if_pos hship] at h ⊢
      obtain ⟨_, r₁₄, noted₁₄, hskip, h⟩ := bind_eq_next_iff.mp h
      obtain ⟨version, r₁₅, hversion, -⟩ := text_of_bind h
      obtain ⟨a, b, c, hthree⟩ := three_of_skip (read_eq_next_iff.mp hskip).1
      exact ⟨(a, b, c), version, r₁₅, by rw [hthree, hversion]; rfl⟩
    · simp only [if_neg hship] at h ⊢
      obtain ⟨version, r₁₅, hversion, -⟩ := text_of_bind h
      exact ⟨(0, 0, 0), version, r₁₅, hversion⟩
  have hne : protocol ≠ 0 := by
    rintro rfl
    exact hknown (by rw [Reader.peek?, hprotocol, List.head?_cons])
  let head : SourceHead :=
    { protocol, known := hne, name, map, folder, game, appId, numPlayers, maxPlayers, bots,
      serverType, environment, visibility, secure, ship, version }
  have hrest : r.rest = head.octets ++ r₁₅.rest := by
    simp [hprotocol, hname, hmap, hfolder, hgame, happId, hnumPlayers, hmaxPlayers, hbots,
      hserverType, henvironment, hvisibility, hsecure, hlast, head, SourceHead.octets,
      SourceHead.shipOctets]
  -- nothing is read after the version
  have hreads := (needs_statusHead head).reads r₁₅.rest r.pos noted
  rw [← hrest] at hreads
  obtain ⟨-, rfl, -⟩ := Step.next.inj (hreads.symm.trans hhead)
  exact ⟨head, hrest⟩

theorem strict_compactStatus (name map : String) : Strict (compactStatus name map) := by
  unfold compactStatus
  repeat' with_reducible refine strict_bind ?_ fun _ => ?_
  all_goals simp

theorem strict_goldSrcStatus : Strict goldSrcStatus := by
  unfold goldSrcStatus modification
  repeat' with_reducible first | refine strict_bind ?_ fun _ => ?_ | refine strict_ite ?_ ?_
  all_goals simp

theorem strict_portField (flags : UInt8) : Strict (portField flags) := by
  unfold portField steamIdField relayField keywordsField gameIdField
  repeat' with_reducible first | refine strict_bind ?_ fun _ => ?_ | refine strict_ite ?_ ?_
  all_goals simp

theorem strict_rules (count : Nat) : Strict (rules count) := by
  induction count with
  | zero => exact strict_pure ()
  | succ count ih =>
    refine strict_bind strict_cstring fun _ => strict_bind strict_cstring fun _ => ?_
    exact strict_bind (strict_note _) fun _ => ih

theorem strict_players (count : Nat) : Strict (players count) := by
  induction count with
  | zero => exact strict_pure ()
  | succ count ih =>
    refine strict_bind strict_uint8 fun _ => strict_bind strict_cstring fun _ => ?_
    refine strict_bind strict_int32LE fun _ => strict_bind strict_uint32LE fun _ => ?_
    exact strict_bind (strict_note _) fun _ => ih

theorem strict_challenge (s : Situation) : Strict (challenge s) := by
  unfold challenge
  repeat' with_reducible first | refine strict_bind ?_ fun _ => ?_ | refine strict_ite ?_ ?_
  all_goals simp

end A2s

/-! ## Minecraft -/

namespace GameSpy4

/-- What is read up to an empty text, where `body` reads on after each other one. -/
def untilEmpty (body : String → Reply Unit) : Nat → Reply Unit
  | 0 => pure ()
  | rounds + 1 => do
    let text ← Reply.read Reader.cstring
    if text = "" then pure ()
    else
      body text
      untilEmpty body rounds

theorem notePairs_eq :
    notePairs = untilEmpty fun key => Reply.read Reader.cstring >>= notePair key := by
  funext rounds
  induction rounds with
  | zero => rfl
  | succ rounds ih =>
    unfold notePairs untilEmpty
    rw [ih]
    simp only [bind_assoc]

theorem noteNames_eq : noteNames = untilEmpty fun name => note (.newcomer [.name name]) := by
  funext rounds
  induction rounds with
  | zero => rfl
  | succ rounds ih =>
    unfold noteNames untilEmpty
    rw [ih]

/-- A repetition needs all of `octets` to come to its end and note `facts`, and nothing beyond,
if it goes round often enough. -/
structure Rounds (rounds : Nat → Reply Unit) (octets : List UInt8) (facts : List Fact) : Prop where
  reads : ∀ n, octets.length ≤ n → ∀ rest, Reads (rounds n) octets rest () facts
  lacks : ∀ n, Lacks (rounds n) octets facts fun cut => cut = octets ∨ n ≤ cut.length

section Repetition

variable {body : String → Reply Unit} {p : Piece}

theorem one_le_length_ended : 1 ≤ p.ended.length := by
  rw [Piece.ended, List.length_append]
  exact Nat.le_add_left 1 _

/-- An empty text is the end. -/
theorem rounds_empty (h : p.text = "") : Rounds (untilEmpty body) p.ended [] := by
  have hneeds : ∀ n, Needs (untilEmpty body (n + 1)) p.ended () [] := by
    intro n
    refine needs_lastText ?_
    rw [if_pos h]
    exact needs_pure ()
  constructor
  · intro n hn
    obtain ⟨n, rfl⟩ : ∃ i, n = i + 1 := Nat.exists_eq_add_one.mpr (one_le_length_ended.trans hn)
    exact (hneeds n).reads
  · rintro (_ | n)
    · exact fun cut _ hnot => absurd (.inr (Nat.zero_le _)) hnot
    · exact (hneeds n).lacks.mono fun _ => .inl

/-- Another text is one round. -/
theorem rounds_more {octets more : List UInt8} {facts told : List Fact} (h : p.text ≠ "")
    (hbody : Needs (body p.text) octets () facts) (hmore : Rounds (untilEmpty body) more told) :
    Rounds (untilEmpty body) (p.ended ++ (octets ++ more)) (facts ++ told) := by
  have hone := one_le_length_ended (p := p)
  constructor
  · intro n hn rest
    rw [List.length_append, List.length_append] at hn
    obtain ⟨n, rfl⟩ : ∃ i, n = i + 1 := Nat.exists_eq_add_one.mpr (by omega)
    refine ((needs_cstring p).reads _).bind ?_
    rw [if_neg h]
    exact (hbody.reads _).bind (hmore.reads n (by omega) rest)
  · rintro (_ | n)
    · exact fun cut _ hnot => absurd (.inr (Nat.zero_le _)) hnot
    · have hnext : Lacks (if p.text = "" then pure () else do body p.text; untilEmpty body n)
          (octets ++ more) (facts ++ told)
          fun cut => ∃ tail, (tail = more ∨ n ≤ tail.length) ∧ cut = octets ++ tail := by
        rw [if_neg h]
        exact hbody.lacks_bind (hmore.lacks n)
      refine ((needs_cstring p).lacks_bind hnext).mono ?_
      rintro cut ⟨_, ⟨tail, rfl | hlong, rfl⟩, rfl⟩
      · exact .inl rfl
      · refine .inr ?_
        rw [List.length_append, List.length_append]
        omega

/-- Enough rounds need what they pass, if each of them does. -/
theorem exists_rounds (hbody : ∀ text, Strict (body text)) {n : Nat} {r r' : Reader}
    {noted noted' : List Fact} (hn : r.rest.length < n)
    (h : untilEmpty body n r noted = .next () r' noted') :
    ∃ octets facts, r.rest = octets ++ r'.rest ∧ noted' = facts.reverse ++ noted ∧
      Rounds (untilEmpty body) octets facts := by
  induction n generalizing r noted with
  | zero => exact absurd hn (Nat.not_lt_zero _)
  | succ n ih =>
    obtain ⟨p, r₁, hrest, hnext⟩ := text_of_bind h
    by_cases hempty : p.text = ""
    · rw [if_pos hempty] at hnext
      obtain ⟨-, rfl, rfl⟩ := pure_eq_next_iff.mp hnext
      exact ⟨p.ended, [], hrest, rfl, rounds_empty hempty⟩
    · rw [if_neg hempty] at hnext
      obtain ⟨_, r₂, noted₂, hround, hnext⟩ := bind_eq_next_iff.mp hnext
      obtain ⟨octets, facts, hrest₁, rfl, hneeds⟩ := hbody _ _ _ _ _ _ hround
      have hlength := congrArg List.length (hrest.trans (congrArg _ hrest₁))
      have hone := one_le_length_ended (p := p)
      rw [List.length_append, List.length_append] at hlength
      obtain ⟨more, told, hrest₂, rfl, hmore⟩ := ih (by omega) hnext
      refine ⟨p.ended ++ (octets ++ more), facts ++ told, ?_, ?_, rounds_more hempty hneeds hmore⟩
      · rw [hrest, hrest₁, hrest₂, List.append_assoc, List.append_assoc]
      · rw [List.reverse_append, List.append_assoc]

/-- There are always rounds enough to read on. -/
theorem Rounds.reads_forAll {rounds : Nat → Reply Unit} {octets : List UInt8} {facts : List Fact}
    (h : Rounds rounds octets facts) (rest : List UInt8) :
    Reads (forAll rounds) octets rest () facts := by
  intro pos noted
  refine h.reads _ ?_ rest pos noted
  rw [Reader.remaining, List.length_append]
  omega

/-- There are always rounds enough. -/
theorem strict_forAll (hbody : ∀ text, Strict (body text)) :
    Strict (forAll (untilEmpty body)) := by
  intro r noted a r' noted' h
  obtain ⟨octets, facts, hrest, hnoted, hrounds⟩ := exists_rounds hbody (Nat.lt_succ_self _) h
  refine ⟨octets, facts, hrest, hnoted, hrounds.reads_forAll, fun cut hcut hne pos noted => ?_⟩
  refine hrounds.lacks (cut.length + 1) cut hcut ?_ pos noted
  rintro (hall | hfew)
  · exact hne hall
  · exact absurd hfew (Nat.not_succ_le_self _)

end Repetition

@[simp] theorem strict_number (key value : String) : Strict (number key value) :=
  strict_require _ _

theorem strict_notePair (key value : String) : Strict (notePair key value) := by
  unfold notePair
  split
  all_goals
    repeat' with_reducible refine strict_bind ?_ fun _ => ?_
    all_goals simp

theorem strict_fullStatus : Strict fullStatus := by
  unfold fullStatus
  rw [notePairs_eq, noteNames_eq]
  refine strict_bind (strict_expect _) fun _ => strict_bind (strict_forAll fun key => ?_) ?_
  · exact strict_bind strict_cstring fun value => strict_notePair key value
  · exact fun _ => strict_bind (strict_expect _) fun _ => strict_forAll fun name => strict_note _

theorem strict_handshake (s : Situation) : Strict (handshake s) := by
  unfold handshake tokenOf
  repeat' with_reducible first | refine strict_bind ?_ fun _ => ?_ | refine strict_ite ?_ ?_
  all_goals simp

/-- **All replies of Minecraft servers are read strictly.** -/
theorem strict_reply (s : Situation) : Strict (reply s) := by
  unfold reply
  refine strict_bind strict_uint8 fun _ => strict_bind strict_int32BE fun _ => ?_
  refine strict_ite (strict_fail _) (strict_ite (strict_handshake s) ?_)
  refine strict_ite ?_ (strict_fail _)
  refine strict_bind (strict_accept s .status) fun _ => ?_
  exact strict_bind strict_fullStatus fun _ => strict_pure _

end GameSpy4

end Protocol

end ServerProbe

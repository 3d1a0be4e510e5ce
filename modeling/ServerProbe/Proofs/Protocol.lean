/-
What a payload can tell in each protocol.

For the course of a query three kinds of reading have to be told apart: one that
hands out a token and tells nothing else, one that is a piece of a split reply and
tells nothing at all, and one that tells plain facts. `Protocol.read_tells` says that
there is no fourth kind, and for each kind how the reading can end. In particular a
plain reading never answers the challenge, and whatever is answered is answered by
name.
-/
import ServerProbe.Proofs.Replies

set_option autoImplicit false

namespace ServerProbe

open Reply

/-! ## Plain facts -/

/-- Whether a fact is about anything but a token. -/
def Fact.Plain (f : Fact) : Prop := ∀ value, f ≠ .token value

/-- Whether an ending answers some phases beyond the challenge, or nothing. -/
def Ending.Plain : Ending → Prop
  | .done answered sealing => sealing = true ∧ answered.isEmpty = false ∧ .challenge ∉ answered
  | .more resend => resend = false
  | .piece _ _ _ _ => False

/-- Whether a fact can stand in a reply that tells everything at once and does not number the
players. -/
inductive Fact.InStatus : Fact → Prop where
  | name (text : String) : InStatus (.name text)
  | map (text : String) : InStatus (.map text)
  | game (text : String) : InStatus (.game text)
  | numPlayers (count : UInt32) : InStatus (.numPlayers count)
  | maxPlayers (count : UInt32) : InStatus (.maxPlayers count)
  | rule (name value : String) : InStatus (.rule name value)
  | newcomer (fields : List PlayerField) : InStatus (.newcomer fields)

theorem Fact.InStatus.plain {f : Fact} (h : f.InStatus) : f.Plain := by
  rintro value rfl
  cases h

/-- A reader that notes plain facts only. -/
abbrev NotesPlain {α : Type} (m : Reply α) : Prop := Yields Fact.Plain (fun _ => True) m

/-- A reader that notes what can stand in a reply that tells everything at once. -/
abbrev NotesStatus {α : Type} (m : Reply α) : Prop := Yields Fact.InStatus (fun _ => True) m

theorem NotesStatus.plain {α : Type} {m : Reply α} (h : NotesStatus m) : NotesPlain m :=
  h.mono (fun _ hf => hf.plain) fun _ h => h

/-- A reader of whole replies that notes plain facts only and ends plainly. -/
abbrev EndsPlain (m : Reply Ending) : Prop := Yields Fact.Plain Ending.Plain m

namespace Protocol

/-! ## Kinds of reading -/

/-- Whether a payload is a reply that hands out a token: for Source and GoldSrc servers
the header, the type octet and the token; for the fourth GameSpy query the type octet,
the id of the session and the token in decimal. -/
def HandsOut (p : Protocol) (s : Session) (payload : List UInt8) (token : Int32) : Prop :=
  match p with
  | a2s => ∃ rest, payload = A2s.header ++ 0x41 :: A2s.tokenOctets token ++ rest
  | gs4 => ∃ text rest,
      payload = GameSpy4.handshakeType :: Octets.bigEndian 4 s.sessionId.toNat
        ++ text ++ 0 :: rest ∧
      0 ∉ text ∧ Text.int32? (Text.trim (Text.Utf8.decode text)) = some token
  | _ => False

/-- The kinds of reading that there are. -/
inductive Tells (p : Protocol) (s : Situation) (payload : List UInt8) : Reading → Prop where
  /-- The token that was asked for. -/
  | granted (token : Int32) : p.HandsOut s.session payload token → s.current = some .challenge →
      Tells p s payload ⟨[.token token], .ok (.done (PhaseSet.ofList [.challenge]) true)⟩
  /-- A token that was not asked for, and another one than is held. -/
  | renewed (token : Int32) : p.HandsOut s.session payload token →
      s.current ≠ some .challenge → s.session.challenge ≠ some token →
      Tells p s payload ⟨[.token token], .ok (.more true)⟩
  /-- A piece of a split reply, after a head of nine octets at least. There is memory for all of
  the pieces. -/
  | piece (series : UInt32) (index count : Nat) (chunk : List UInt8) : p = .a2s →
      index < count → count ≤ Fragment.maxPlaces → chunk.length + 9 ≤ payload.length →
      Tells p s payload ⟨[], .ok (.piece series index count chunk)⟩
  /-- Anything else. -/
  | plain (reading : Reading) : (∀ f ∈ reading.facts, f.Plain) →
      (∀ ending, reading.ending = .ok ending → ending.Plain) → Tells p s payload reading

theorem tells_of_endsPlain {p : Protocol} {s : Situation} {payload : List UInt8} {m : Reply Ending}
    (h : EndsPlain m) (r : Reader) : Tells p s payload (m r []).reading :=
  .plain _ (h.reading r).1 (h.reading r).2

theorem tells_stop (p : Protocol) (s : Situation) (payload : List UInt8) (fault : Fault) :
    Tells p s payload (Step.stop fault []).reading :=
  tells_of_endsPlain (yields_fail fault) (Reader.ofPayload payload)

/-- What is done with a token: it is granted or renewed, unless it is of no use. -/
theorem tells_token {p : Protocol} {s : Situation} {payload : List UInt8} {token : Int32}
    (hout : p.HandsOut s.session payload token) (r : Reader) :
    Tells p s payload
      ((if s.current = some .challenge then do
          accept s .challenge
          note (.token token)
          pure (.done (PhaseSet.ofList [.challenge]) true)
        else if s.session.challenge = some token then fail (.unexpected .challenge)
        else do
          note (.token token)
          pure (.more true) : Reply Ending) r []).reading := by
  by_cases hcurrent : s.current = some .challenge
  · rw [if_pos hcurrent]
    by_cases hsealed : Phase.challenge ∈ s.sealed
    · rw [bind_accept_sealed hsealed]
      exact tells_stop _ _ _ _
    · rw [bind_accept_open hsealed]
      exact .granted token hout hcurrent
  · rw [if_neg hcurrent]
    by_cases hheld : s.session.challenge = some token
    · rw [if_pos hheld]
      exact tells_stop _ _ _ _
    · rw [if_neg hheld]
      exact .renewed token hout hcurrent hheld

/-- Nothing but the token is noted of a token. -/
theorem yields_token {fact : Fact → Prop} {token : Int32} (h : fact (.token token))
    (s : Situation) :
    Yields fact (fun _ => True)
      (if s.current = some .challenge then do
        accept s .challenge
        note (.token token)
        pure (.done (PhaseSet.ofList [.challenge]) true)
      else if s.session.challenge = some token then fail (.unexpected .challenge)
      else do
        note (.token token)
        pure (.more true) : Reply Ending) := by
  have hnoted : ∀ ending : Ending,
      Yields fact (fun _ => True) (note (.token token) >>= fun _ => pure ending) :=
    fun ending => yields_bind (yields_note h) fun _ => yields_pure trivial
  refine yields_ite (yields_bind (yields_accept s .challenge) fun _ => hnoted _) ?_
  exact yields_ite (yields_fail _) (hnoted _)

/-! ## Source and GoldSrc -/

namespace A2s

/-- Which facts can stand in a reply to which phase. -/
inductive StandsIn : Phase → Fact → Prop where
  | token (value : Int32) : StandsIn .challenge (.token value)
  | name (text : String) : StandsIn .status (.name text)
  | map (text : String) : StandsIn .status (.map text)
  | game (text : String) : StandsIn .status (.game text)
  | numPlayers (count : UInt32) : StandsIn .status (.numPlayers count)
  | maxPlayers (count : UInt32) : StandsIn .status (.maxPlayers count)
  | revision (value : UInt8) : StandsIn .status (.revision value)
  | statusRule (name value : String) : StandsIn .status (.rule name value)
  | rule (name value : String) : StandsIn .rules (.rule name value)
  | newcomer (fields : List PlayerField) : StandsIn .players (.newcomer fields)

theorem StandsIn.plain {phase : Phase} {f : Fact} (h : StandsIn phase f)
    (hphase : phase ≠ .challenge) : f.Plain := by
  rintro value rfl
  cases h
  exact hphase rfl

/-- A reader that notes what can stand in a reply to a phase. -/
abbrev NotesOn {α : Type} (phase : Phase) (m : Reply α) : Prop :=
  Yields (StandsIn phase) (fun _ => True) m

theorem NotesOn.plain {α : Type} {phase : Phase} {m : Reply α} (h : NotesOn phase m)
    (hphase : phase ≠ .challenge) : NotesPlain m :=
  h.mono (fun _ hf => hf.plain hphase) fun _ h => h

@[simp] theorem notesOn_noteRule (name value : String) : NotesOn .status (noteRule name value) :=
  yields_note (.statusRule name value)

@[simp] theorem notesOn_noteNumber (name : String) (value : Nat) :
    NotesOn .status (noteNumber name value) :=
  yields_note (.statusRule name _)

@[simp] theorem notesOn_noteOs (environment : UInt8) : NotesOn .status (noteOs environment) := by
  unfold noteOs
  split
  · exact notesOn_noteRule _ _
  · exact yields_pure trivial

@[simp] theorem notesOn_compactStatus (name map : String) :
    NotesOn .status (compactStatus name map) := by
  unfold compactStatus
  repeat' with_reducible refine yields_bind ?_ fun _ => ?_
  all_goals first | exact yields_note (by constructor) | simp

@[simp] theorem notesOn_extraFields : NotesOn .status extraFields := by
  unfold extraFields
  refine yields_bind yields_peek? fun flags => ?_
  rcases flags with _ | flags
  · exact yields_pure trivial
  · repeat' with_reducible first | refine yields_bind ?_ fun _ => ?_ | refine yields_ite ?_ ?_
    all_goals simp

@[simp] theorem notesOn_sourceStatus (protocol : UInt8) (name map : String) :
    NotesOn .status (sourceStatus protocol name map) := by
  unfold sourceStatus
  repeat' with_reducible first | refine yields_bind ?_ fun _ => ?_ | refine yields_ite ?_ ?_
  all_goals first | exact yields_note (by constructor) | simp

@[simp] theorem notesOn_status : NotesOn .status status := by
  unfold status
  repeat' with_reducible first | refine yields_bind ?_ fun _ => ?_ | refine yields_ite ?_ ?_
  all_goals simp

@[simp] theorem notesOn_modification : NotesOn .status modification := by
  unfold modification
  repeat' with_reducible refine yields_bind ?_ fun _ => ?_
  all_goals simp

@[simp] theorem notesOn_goldSrcStatus : NotesOn .status goldSrcStatus := by
  unfold goldSrcStatus
  repeat' with_reducible first | refine yields_bind ?_ fun _ => ?_ | refine yields_ite ?_ ?_
  all_goals first | exact yields_note (by constructor) | simp

@[simp] theorem notesOn_rules (count : Nat) : NotesOn .rules (rules count) := by
  induction count with
  | zero => exact yields_pure trivial
  | succ count ih =>
    unfold rules
    repeat' with_reducible refine yields_bind ?_ fun _ => ?_
    all_goals first | exact yields_note (by constructor) | simp [ih]

@[simp] theorem notesOn_players (count : Nat) : NotesOn .players (players count) := by
  induction count with
  | zero => exact yields_pure trivial
  | succ count ih =>
    unfold players
    repeat' with_reducible refine yields_bind ?_ fun _ => ?_
    all_goals first | exact yields_note (by constructor) | simp [ih]

/-- What answers one phase notes what can stand in a reply to it, if the phase is open, and
nothing if it is sealed. -/
theorem yields_answer {s : Situation} {phase : Phase} {body : Reply Unit}
    (hbody : NotesOn phase body) :
    Yields (fun f => phase ∉ s.sealed ∧ StandsIn phase f)
      (fun ending => ending = .done (PhaseSet.ofList [phase]) true) (answer s phase body) := by
  unfold answer
  by_cases hsealed : phase ∈ s.sealed
  · intro r noted
    rw [bind_accept_sealed hsealed]
    exact ⟨[], rfl, by simp⟩
  · refine yields_bind (yields_accept s phase) fun _ => yields_bind ?_ fun _ => yields_pure rfl
    exact hbody.mono (fun _ hf => ⟨hsealed, hf⟩) fun _ h => h

/-- A reply to one phase beyond the challenge is plain. -/
theorem endsPlain_answer {s : Situation} {phase : Phase} {body : Reply Unit}
    (hphase : phase ≠ .challenge) (hbody : NotesOn phase body) :
    EndsPlain (answer s phase body) := by
  refine (yields_answer hbody).mono (fun _ hf => hf.2.plain hphase) ?_
  rintro _ rfl
  -- the set that is answered is a fixed one for each phase
  cases phase
  · exact absurd rfl hphase
  all_goals exact ⟨rfl, by decide, by decide⟩

theorem tells_challenge {s : Situation} {payload : List UInt8} {r : Reader}
    (hpayload : payload = header ++ 0x41 :: r.rest) :
    Tells .a2s s payload (challenge s r []).reading := by
  unfold challenge
  rcases htoken : r.int32LE with e | ⟨token, r'⟩
  · rw [bind_read_error htoken]
    exact tells_stop _ _ _ _
  rw [bind_read_ok htoken]
  -- the token is what the four octets after the type say, so they are its octets
  have hout : HandsOut .a2s s.session payload token := by
    refine ⟨r'.rest, ?_⟩
    rw [hpayload, Reader.rest_of_int32LE htoken, tokenOctets, List.append_assoc, List.cons_append]
  exact tells_token hout r'

theorem tells_single {s : Situation} {payload : List UInt8} {r : Reader}
    (hpayload : payload = header ++ r.rest) : Tells .a2s s payload (single s r []).reading := by
  unfold single
  rcases hkind : r.uint8 with e | ⟨kind, r'⟩
  · rw [bind_read_error hkind]
    exact tells_stop _ _ _ _
  rw [bind_read_ok hkind]
  obtain ⟨rest, hrest, rfl⟩ := Reader.uint8_eq_ok_iff.mp hkind
  -- only the type `A` hands out a token; the other replies are plain
  by_cases htoken : kind = 0x41
  · subst htoken
    rw [if_pos rfl]
    exact tells_challenge (by rw [hpayload, hrest])
  · rw [if_neg htoken]
    refine tells_of_endsPlain ?_ _
    refine yields_ite (endsPlain_answer nofun ?_) ?_
    · exact yields_bind notesOn_status fun _ => yields_note (.revision _)
    refine yields_ite (endsPlain_answer nofun ?_) ?_
    · exact yields_bind notesOn_goldSrcStatus fun _ => yields_note (.revision _)
    refine yields_ite (endsPlain_answer nofun ?_) ?_
    · exact yields_bind (yields_read _) fun _ => notesOn_rules _
    refine yields_ite (endsPlain_answer nofun ?_) (yields_fail _)
    exact yields_bind (yields_read _) fun _ => notesOn_players _

/-- A number of one octet is not too large for a series. -/
theorem toNat_le_maxPlaces (n : UInt8) : n.toNat ≤ Fragment.maxPlaces :=
  n.toNat_lt.le.trans (by decide)

/-- Place and count of a piece take one octet at least, and are no fact. The count is not too
large for a series. -/
theorem place_next {revision : Option UInt8} {r r' : Reader} {noted noted' : List Fact}
    {found : Nat × Nat} (h : place revision r noted = .next found r' noted') :
    r'.rest.length + 1 ≤ r.rest.length ∧ found.2 ≤ Fragment.maxPlaces ∧ noted' = noted := by
  unfold place at h
  by_cases hrevision : revision = some goldSrcRevision
  · rw [if_pos hrevision] at h
    obtain ⟨packed, r₁, noted₁, hread, hpure⟩ := bind_eq_next_iff.mp h
    obtain ⟨hok, rfl⟩ := read_eq_next_iff.mp hread
    obtain ⟨rest, hrest, rfl⟩ := Reader.uint8_eq_ok_iff.mp hok
    obtain ⟨rfl, rfl, rfl⟩ := pure_eq_next_iff.mp hpure
    exact ⟨by simp [hrest], (Nat.mod_le _ _).trans (toNat_le_maxPlaces packed), rfl⟩
  · rw [if_neg hrevision] at h
    obtain ⟨count, r₁, noted₁, hread₁, h⟩ := bind_eq_next_iff.mp h
    obtain ⟨index, r₂, noted₂, hread₂, h⟩ := bind_eq_next_iff.mp h
    obtain ⟨size, r₃, noted₃, hread₃, h⟩ := bind_eq_next_iff.mp h
    obtain ⟨hok₁, rfl⟩ := read_eq_next_iff.mp hread₁
    obtain ⟨hok₂, rfl⟩ := read_eq_next_iff.mp hread₂
    obtain ⟨hok₃, rfl⟩ := read_eq_next_iff.mp hread₃
    obtain ⟨rest₁, hrest₁, rfl⟩ := Reader.uint8_eq_ok_iff.mp hok₁
    obtain ⟨rest₂, hrest₂, rfl⟩ := Reader.uint8_eq_ok_iff.mp hok₂
    obtain ⟨-, -, rfl⟩ := Reader.uint16LE_eq_ok_iff.mp hok₃
    obtain ⟨rfl, rfl, rfl⟩ := pure_eq_next_iff.mp h
    dsimp only at hrest₂
    refine ⟨?_, toNat_le_maxPlaces count, rfl⟩
    simp only [hrest₁, hrest₂, List.length_drop, List.length_cons]
    omega

theorem yields_place (fact : Fact → Prop) (revision : Option UInt8) :
    Yields fact (fun _ => True) (place revision) := by
  unfold place
  repeat' with_reducible first | refine yields_bind ?_ fun _ => ?_ | refine yields_ite ?_ ?_
  all_goals simp

/-- A piece of a split reply tells nothing, and answers nothing. -/
theorem yields_split (s : Situation) :
    Yields (fun _ => False) (fun ending => ∀ answered sealing, ending ≠ .done answered sealing)
      (split s) := by
  unfold split
  refine yields_bind (yields_read _) fun series => yields_ite (yields_fail _) ?_
  refine yields_bind (yields_place _ _) fun found => ?_
  exact yields_ite (yields_fail _) (yields_bind yields_takeRest fun _ => yields_pure nofun)

theorem tells_split {s : Situation} {payload : List UInt8} {r : Reader}
    (hlength : r.rest.length + 4 = payload.length) :
    Tells .a2s s payload (split s r []).reading := by
  unfold split
  rcases hseries : r.uint32LE with e | ⟨series, r₁⟩
  · rw [bind_read_error hseries]
    exact tells_stop _ _ _ _
  rw [bind_read_ok hseries]
  obtain ⟨hfour, -, rfl⟩ := Reader.uint32LE_eq_ok_iff.mp hseries
  by_cases hpacked : (series &&& 0x80000000 != 0) = true
  · rw [if_pos hpacked]
    exact tells_stop _ _ _ _
  rw [if_neg hpacked]
  -- whatever the layout, place and count take one octet at least and are no fact
  rcases hplace : place s.session.revision ⟨r.pos + 4, r.rest.drop 4⟩ [] with
    ⟨⟨index, count⟩, r₂, noted⟩ | ⟨fault, noted⟩
  · obtain ⟨hlt, hroom, rfl⟩ := place_next hplace
    rw [List.length_drop] at hlt
    rw [bind_next hplace]
    by_cases hrange : count ≤ index
    · simp only [if_pos hrange]
      exact tells_stop _ _ _ _
    · simp only [if_neg hrange]
      exact .piece series index count r₂.rest rfl (by omega) hroom (by omega)
  · have hnoted := yields_place (fun _ => False) s.session.revision
      ⟨r.pos + 4, r.rest.drop 4⟩ []
    rw [hplace] at hnoted
    obtain ⟨new, rfl, hnew⟩ := hnoted
    obtain rfl : new = [] := List.eq_nil_iff_forall_not_mem.mpr hnew
    rw [bind_stop hplace]
    exact tells_stop _ _ _ _

/-- The kinds of reading of any datagram. -/
theorem tells_reply (s : Situation) (payload : List UInt8) :
    Tells .a2s s payload ((reply s).readAll payload) := by
  rw [readAll_eq]
  unfold reply
  rcases hmarker : (Reader.ofPayload payload).int32LE with e | ⟨marker, r⟩
  · rw [bind_read_error hmarker]
    exact tells_stop _ _ _ _
  rw [bind_read_ok hmarker]
  have hoctets := Reader.rest_of_int32LE hmarker
  -- after the marker -1 the payload starts with the header
  by_cases hsingle : marker = -1
  · subst hsingle
    rw [if_pos rfl]
    exact tells_single hoctets
  rw [if_neg hsingle]
  by_cases hsplit : marker = -2
  · rw [if_pos hsplit]
    refine tells_split ?_
    have hlength := congrArg List.length hoctets
    rw [List.length_append, Octets.length_littleEndian] at hlength
    exact (Nat.add_comm _ _).trans hlength.symm
  · rw [if_neg hsplit]
    exact tells_stop _ _ _ _

end A2s

/-! ## The first GameSpy query -/

namespace GameSpy

/-- Which facts can stand in a datagram. -/
inductive StandsIn : Fact → Prop where
  | name (text : String) : StandsIn (.name text)
  | map (text : String) : StandsIn (.map text)
  | game (text : String) : StandsIn (.game text)
  | numPlayers (count : UInt32) : StandsIn (.numPlayers count)
  | maxPlayers (count : UInt32) : StandsIn (.maxPlayers count)
  | rule (name value : String) : StandsIn (.rule name value)
  | seen (number : Int32) : StandsIn (.seen number)
  | field (number : Int32) (value : PlayerField) : StandsIn (.field number value)
  | datagram (number : UInt8) (final : Bool) : StandsIn (.datagram number final)

theorem StandsIn.plain {f : Fact} (h : StandsIn f) : f.Plain := by
  rintro value rfl
  cases h

/-- Which facts a pair can tell: any but the number of the datagram. -/
def TellsPair (f : Fact) : Prop := StandsIn f ∧ ∀ number final, f ≠ .datagram number final

/-- A reader that notes what pairs can tell. -/
abbrev NotesPairs {α : Type} (m : Reply α) : Prop := Yields TellsPair (fun _ => True) m

@[simp] theorem notes_notePlayerField (field : String) (number : Int32) (value : List Char) :
    NotesPairs (notePlayerField field number value) := by
  unfold notePlayerField
  refine yields_bind (yields_note ⟨.seen number, nofun⟩) fun _ => ?_
  dsimp only
  split
  case h_6 =>
    split
    · exact yields_note ⟨.field number _, nofun⟩
    · exact yields_note ⟨.field number _, nofun⟩
  all_goals
    repeat' with_reducible refine yields_bind ?_ fun _ => ?_
    all_goals first | exact yields_note ⟨.field number _, nofun⟩ | simp

@[simp] theorem notes_notePair (pair : Pair) : NotesPairs (notePair pair) := by
  obtain ⟨key, value⟩ := pair
  unfold notePair
  dsimp only
  split
  case h_8 =>
    split
    · exact notes_notePlayerField _ _ _
    · exact yields_note ⟨.rule _ _, nofun⟩
  all_goals
    repeat' with_reducible refine yields_bind ?_ fun _ => ?_
    all_goals first | exact yields_note ⟨by constructor, nofun⟩ | simp

@[simp] theorem notes_notePairs (pairs : List Pair) : NotesPairs (notePairs pairs) := by
  induction pairs with
  | nil => exact yields_pure trivial
  | cons pair rest ih => exact yields_bind (notes_notePair pair) fun _ => ih

/-- What is read on from a result, if there is one. -/
theorem yields_bind_ofExcept {α β : Type} {fact : Fact → Prop} {result : β → Prop}
    {value : Except Fault α} {k : α → Reply β}
    (h : ∀ a, value = .ok a → Yields fact result (k a)) :
    Yields fact result (ofExcept value >>= k) := by
  cases value with
  | ok a => exact h a rfl
  | error fault => exact yields_fail fault

/-- What a datagram notes, and how it ends. -/
theorem yields_reply (s : Situation) : Yields StandsIn Ending.Plain (reply s) := by
  unfold reply
  refine yields_bind (yields_accept s .status) fun _ => ?_
  refine yields_bind yields_takeRest fun payload => ?_
  refine yields_bind_ofExcept fun pairs _ => ?_
  refine yields_bind_ofExcept fun n _ => yields_ite (yields_pure rfl) ?_
  refine yields_bind (yields_note (.datagram _ _)) fun _ => ?_
  refine yields_bind ((notes_notePairs pairs).mono (fun _ h => h.1) fun _ h => h) fun _ => ?_
  exact yields_ite (yields_pure ⟨rfl, by decide, by decide⟩) (yields_pure rfl)

theorem endsPlain_reply (s : Situation) : EndsPlain (reply s) :=
  (yields_reply s).mono (fun _ hf => hf.plain) fun _ h => h

end GameSpy

/-! ## Quake 3 -/

namespace Quake3

@[simp] theorem notesStatus_noteKnown (key value : List Char) :
    NotesStatus (noteKnown key value) := by
  unfold noteKnown
  dsimp only
  split
  all_goals
    repeat' with_reducible refine yields_bind ?_ fun _ => ?_
    all_goals first | exact yields_note (by constructor) | simp

@[simp] theorem notesStatus_noteVariables (tokens : List (List Char)) :
    NotesStatus (noteVariables tokens) := by
  fun_induction noteVariables tokens with
  | case1 => exact yields_pure trivial
  | case2 => exact yields_pure trivial
  | case3 => exact yields_fail _
  | case4 key value rest hempty ih => exact ih
  | case5 key value rest hempty ih =>
    refine yields_bind (notesStatus_noteKnown key value) fun _ => ?_
    exact yields_bind (yields_note (.rule _ _)) fun _ => ih

@[simp] theorem notesStatus_notePlayers (lines : List (List Char)) :
    NotesStatus (notePlayers lines) := by
  induction lines with
  | nil => exact yields_pure trivial
  | cons line rest ih =>
    refine yields_bind (yields_bind (yields_require _ _) fun _ => ?_) fun _ => ih
    exact yields_note (.newcomer _)

@[simp] theorem notesStatus_noteLines (lines : List (List Char)) :
    NotesStatus (noteLines lines) := by
  cases lines with
  | nil => exact yields_fail _
  | cons info lines =>
    refine yields_bind (notesStatus_noteVariables _) fun _ => ?_
    exact yields_bind (notesStatus_notePlayers _) fun _ => yields_note (.numPlayers _)

@[simp] theorem notesStatus_expectResponse : NotesStatus expectResponse := by
  intro r noted
  unfold expectResponse
  rcases r.expect responseWord with e | ⟨_, r'⟩
  · exact ⟨[], rfl, by simp⟩
  · exact ⟨trivial, [], rfl, by simp⟩

/-- What a reply notes, and how it ends. -/
theorem yields_reply (s : Situation) : Yields Fact.InStatus Ending.Plain (reply s) := by
  unfold reply
  refine yields_bind (yields_read _) fun _ => yields_bind notesStatus_expectResponse fun _ => ?_
  refine yields_bind (yields_accept s .status) fun _ => yields_bind yields_takeRest fun body => ?_
  exact yields_bind (notesStatus_noteLines _) fun _ => yields_pure ⟨rfl, by decide, by decide⟩

theorem endsPlain_reply (s : Situation) : EndsPlain (reply s) :=
  (yields_reply s).mono (fun _ hf => hf.plain) fun _ h => h

end Quake3

/-! ## The fourth GameSpy query -/

namespace GameSpy4

@[simp] theorem notesStatus_notePair (key value : String) : NotesStatus (notePair key value) := by
  unfold notePair number
  split
  all_goals
    repeat' with_reducible refine yields_bind ?_ fun _ => ?_
    all_goals first | exact yields_note (by constructor) | simp

@[simp] theorem notesStatus_notePairs (rounds : Nat) : NotesStatus (notePairs rounds) := by
  induction rounds with
  | zero => exact yields_pure trivial
  | succ rounds ih =>
    refine yields_bind (yields_read _) fun key => yields_ite (yields_pure trivial) ?_
    refine yields_bind (yields_read _) fun value => ?_
    exact yields_bind (notesStatus_notePair key value) fun _ => ih

@[simp] theorem notesStatus_noteNames (rounds : Nat) : NotesStatus (noteNames rounds) := by
  induction rounds with
  | zero => exact yields_pure trivial
  | succ rounds ih =>
    refine yields_bind (yields_read _) fun name => yields_ite (yields_pure trivial) ?_
    exact yields_bind (yields_note (.newcomer _)) fun _ => ih

theorem notesStatus_forAll {rounds : Nat → Reply Unit} (h : ∀ n, NotesStatus (rounds n)) :
    NotesStatus (forAll rounds) :=
  fun r noted => h (r.remaining + 1) r noted

@[simp] theorem notesStatus_fullStatus : NotesStatus fullStatus := by
  unfold fullStatus
  refine yields_bind (yields_read _) fun _ => ?_
  refine yields_bind (notesStatus_forAll notesStatus_notePairs) fun _ => ?_
  exact yields_bind (yields_read _) fun _ => notesStatus_forAll notesStatus_noteNames

theorem tells_handshake {s : Situation} {payload : List UInt8} {r : Reader}
    (hpayload : payload
      = handshakeType :: Octets.bigEndian 4 s.session.sessionId.toNat ++ r.rest) :
    Tells .gs4 s payload (handshake s r []).reading := by
  unfold handshake tokenOf
  rcases htext : r.cstring with e | ⟨text, r'⟩
  · rw [bind_read_error htext]
    exact tells_stop _ _ _ _
  rw [bind_read_ok htext]
  obtain ⟨piece, after, hrest, hnot, rfl, rfl⟩ := Reader.cstring_eq_ok_iff.mp htext
  rcases htoken : Text.int32? (Text.trim (String.ofList (Text.Utf8.decode piece)).toList) with
    _ | token
  · exact tells_stop _ _ _ _
  have hout : HandsOut .gs4 s.session payload token := by
    refine ⟨piece, after, ?_, hnot, by simpa using htoken⟩
    rw [hpayload, hrest, List.append_assoc]
  show Tells .gs4 s payload (Reply.bind (Reply.pure token) _ _ _).reading
  simp only [Reply.bind, Reply.pure]
  exact tells_token hout _

/-- The kinds of reading of any datagram. -/
theorem tells_reply (s : Situation) (payload : List UInt8) :
    Tells .gs4 s payload ((reply s).readAll payload) := by
  rw [readAll_eq]
  unfold reply
  rcases hkind : (Reader.ofPayload payload).uint8 with e | ⟨kind, r₁⟩
  · rw [bind_read_error hkind]
    exact tells_stop _ _ _ _
  rw [bind_read_ok hkind]
  obtain ⟨rest, hrest, rfl⟩ := Reader.uint8_eq_ok_iff.mp hkind
  rcases hid : (Reader.int32BE ⟨(Reader.ofPayload payload).pos + 1, rest⟩) with e | ⟨id, r₂⟩
  · rw [bind_read_error hid]
    exact tells_stop _ _ _ _
  rw [bind_read_ok hid]
  obtain ⟨hfour, hvalue, rfl⟩ := Reader.int32BE_eq_ok_iff.mp hid
  by_cases hsession : id.toUInt32 ≠ s.session.sessionId
  · rw [if_pos hsession]
    exact tells_stop _ _ _ _
  rw [if_neg hsession]
  by_cases htoken : kind = handshakeType
  · rw [if_pos htoken]
    refine tells_handshake ?_
    have hoctets : Octets.bigEndian 4 s.session.sessionId.toNat = rest.take 4 := by
      rw [← not_ne_iff.mp hsession, hvalue, UInt32.toUInt32_toInt32]
      exact Octets.bigEndian_toNat_ofNat (List.length_take_of_le hfour)
    have hpayload : payload = kind :: rest := hrest
    rw [hpayload, htoken, hoctets, List.cons_append, List.take_append_drop]
  · rw [if_neg htoken]
    refine tells_of_endsPlain (yields_ite ?_ (yields_fail _)) _
    refine yields_bind (yields_accept s .status) fun _ => ?_
    exact yields_bind notesStatus_fullStatus.plain fun _ => yields_pure ⟨rfl, by decide, by decide⟩

end GameSpy4

/-! ## All protocols -/

/-- **The kinds of reading of any payload**, whatever the protocol. -/
theorem read_tells (p : Protocol) (s : Situation) (payload : List UInt8) :
    p.Tells s payload (p.read s payload) := by
  cases p with
  | a2s => exact A2s.tells_reply s payload
  | gamespy =>
    rw [Protocol.read, readAll_eq]
    exact tells_of_endsPlain (GameSpy.endsPlain_reply s) _
  | q3 =>
    rw [Protocol.read, readAll_eq]
    exact tells_of_endsPlain (Quake3.endsPlain_reply s) _
  | gs4 => exact GameSpy4.tells_reply s payload

end Protocol

end ServerProbe

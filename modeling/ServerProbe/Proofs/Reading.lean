/-
What the readers of replies can come to.

A parser learns what it reads as it goes, and asks its context on the way. For most that is
said about replies it is easier to keep the two apart: a payload is read against what is known
beforehand (`Situation`) into its facts and how it ends (`Reading`), and only then acted on.

A reader is put together from a few primitive ones, so what it notes and yields is
found by going through its parts (`Yields`). Where the octets themselves matter, a
reading is taken apart step by step instead (`bind_eq_next_iff`).
-/
import Mathlib.Algebra.Group.Nat.Even
import Mathlib.Data.List.Basic
import Mathlib.Data.List.TakeWhile
import ServerProbe.Reading

set_option autoImplicit false

namespace ServerProbe

/-! ## Readings -/

/-- How the reading of a payload ended. -/
inductive Ending where
  /-- It answered these phases; when `sealing`, later replies to them are refused. -/
  | done (answered : PhaseSet) (sealing : Bool)
  /-- It answered nothing; with `resend`, the request should be sent again. -/
  | more (resend : Bool)
  /-- It is one piece of a reply. -/
  | piece (series : UInt32) (index count : Nat) (payload : List UInt8)
  deriving Repr, DecidableEq

/-- A payload, read. -/
structure Reading where
  facts : List Fact
  ending : Except Fault Ending

/-- What a payload is read against. -/
structure Situation where
  /-- The phase that is being asked. -/
  current : Option Phase
  /-- The phases to which no reply is welcome any more. -/
  sealed : PhaseSet
  session : Session
  deriving Repr, DecidableEq

namespace Reply

/-- Ends with a fault if replies to `phase` are not welcome any more. -/
@[inline] def accept (s : Situation) (phase : Phase) : Reply Unit :=
  if phase ∈ s.sealed then fail (.unexpected phase) else Reply.pure ()

/-- Reads a whole payload. -/
def readAll (m : Reply Ending) (payload : List UInt8) : Reading :=
  match m (Reader.ofPayload payload) [] with
  | .next ending _ noted => ⟨noted.reverse, .ok ending⟩
  | .stop fault noted => ⟨noted.reverse, .error fault⟩

end Reply

/-! ## Octets as numbers -/

namespace Octets

/-- As many octets as a number was made of give it back. -/
theorem littleEndian_ofLittleEndian (bs : List UInt8) :
    littleEndian bs.length (ofLittleEndian bs) = bs := by
  induction bs with
  | nil => rfl
  | cons b rest ih =>
    have hvalue : ofLittleEndian (b :: rest) = b.toNat + 0x100 * ofLittleEndian rest := rfl
    -- the first octet is the remainder, the others are the quotient
    have hlow : UInt8.ofNat (ofLittleEndian (b :: rest)) = b := by
      apply UInt8.toNat_inj.mp
      have := b.toNat_lt
      rw [UInt8.toNat_ofNat', hvalue]
      omega
    have hhigh : ofLittleEndian (b :: rest) / 0x100 = ofLittleEndian rest := by
      have := b.toNat_lt
      rw [hvalue]
      omega
    rw [List.length_cons, littleEndian, hlow, hhigh, ih]

theorem ofLittleEndian_lt (bs : List UInt8) : ofLittleEndian bs < 0x100 ^ bs.length := by
  induction bs with
  | nil => simp [ofLittleEndian]
  | cons b rest ih =>
    have hvalue : ofLittleEndian (b :: rest) = b.toNat + 0x100 * ofLittleEndian rest := rfl
    have := b.toNat_lt
    rw [hvalue, List.length_cons, pow_succ]
    omega

/-- The octets of a word that was read from four octets. -/
theorem littleEndian_toNat_ofNat {bs : List UInt8} (h : bs.length = 4) :
    littleEndian 4 (UInt32.ofNat (ofLittleEndian bs)).toNat = bs := by
  have hlt := ofLittleEndian_lt bs
  rw [h] at hlt
  -- four octets fit into a word, so nothing is cut off
  rw [UInt32.toNat_ofNat_of_lt' (by simpa [UInt32.size] using hlt), ← h]
  exact littleEndian_ofLittleEndian bs

/-- The octets of a short word that was read from two octets. -/
theorem littleEndian_toNat_ofNat_two {bs : List UInt8} (h : bs.length = 2) :
    littleEndian 2 (UInt16.ofNat (ofLittleEndian bs)).toNat = bs := by
  have hlt := ofLittleEndian_lt bs
  rw [h] at hlt
  rw [UInt16.toNat_ofNat_of_lt' (by simpa [UInt16.size] using hlt), ← h]
  exact littleEndian_ofLittleEndian bs

theorem bigEndian_toNat_ofNat {bs : List UInt8} (h : bs.length = 4) :
    bigEndian 4 (UInt32.ofNat (ofBigEndian bs)).toNat = bs := by
  have hlength : bs.reverse.length = 4 := by simpa using h
  have hreverse := littleEndian_toNat_ofNat hlength
  rw [bigEndian, ofBigEndian, hreverse, List.reverse_reverse]

end Octets

/-! ## Octets read -/

namespace Reader

theorem bytes_eq_ok_iff {n : Nat} {r r' : Reader} {piece : List UInt8} :
    r.bytes n = .ok (piece, r') ↔
      n ≤ r.rest.length ∧ piece = r.rest.take n ∧ r' = ⟨r.pos + n, r.rest.drop n⟩ := by
  simp only [bytes, List.length_take]
  by_cases h : n ≤ r.rest.length
  · rw [if_pos (Nat.min_eq_left h)]
    simp [h, eq_comm]
  · rw [if_neg (by omega)]
    simp [h]

/-- A number read is the octets read, turned into a number. -/
theorem map_eq_ok_iff {α β : Type} {x : Except ReadError (α × Reader)} {g : α → β} {b : β}
    {r' : Reader} :
    (x.map fun (a, after) => (g a, after)) = .ok (b, r') ↔ ∃ a, x = .ok (a, r') ∧ b = g a := by
  rcases x with e | ⟨a, after⟩
  · simp [Except.map]
  · simp only [Except.map, Except.ok.injEq, Prod.mk.injEq]
    constructor
    · rintro ⟨rfl, rfl⟩
      exact ⟨a, ⟨rfl, rfl⟩, rfl⟩
    · rintro ⟨_, ⟨rfl, rfl⟩, rfl⟩
      exact ⟨rfl, rfl⟩

theorem littleEndian_eq_ok_iff {width value : Nat} {r r' : Reader} :
    r.littleEndian width = .ok (value, r') ↔
      width ≤ r.rest.length ∧ value = Octets.ofLittleEndian (r.rest.take width) ∧
        r' = ⟨r.pos + width, r.rest.drop width⟩ := by
  refine map_eq_ok_iff.trans ⟨?_, ?_⟩
  · rintro ⟨piece, h, rfl⟩
    obtain ⟨hle, rfl, rfl⟩ := bytes_eq_ok_iff.mp h
    exact ⟨hle, rfl, rfl⟩
  · rintro ⟨hle, rfl, rfl⟩
    exact ⟨_, bytes_eq_ok_iff.mpr ⟨hle, rfl, rfl⟩, rfl⟩

theorem bigEndian_eq_ok_iff {width value : Nat} {r r' : Reader} :
    r.bigEndian width = .ok (value, r') ↔
      width ≤ r.rest.length ∧ value = Octets.ofBigEndian (r.rest.take width) ∧
        r' = ⟨r.pos + width, r.rest.drop width⟩ := by
  refine map_eq_ok_iff.trans ⟨?_, ?_⟩
  · rintro ⟨piece, h, rfl⟩
    obtain ⟨hle, rfl, rfl⟩ := bytes_eq_ok_iff.mp h
    exact ⟨hle, rfl, rfl⟩
  · rintro ⟨hle, rfl, rfl⟩
    exact ⟨_, bytes_eq_ok_iff.mpr ⟨hle, rfl, rfl⟩, rfl⟩

theorem map_littleEndian_eq_ok_iff {α : Type} {width : Nat} {g : Nat → α} {value : α}
    {r r' : Reader} :
    ((r.littleEndian width).map fun (n, after) => (g n, after)) = .ok (value, r') ↔
      width ≤ r.rest.length ∧ value = g (Octets.ofLittleEndian (r.rest.take width)) ∧
        r' = ⟨r.pos + width, r.rest.drop width⟩ := by
  refine map_eq_ok_iff.trans ⟨?_, ?_⟩
  · rintro ⟨n, h, rfl⟩
    obtain ⟨hle, rfl, rfl⟩ := littleEndian_eq_ok_iff.mp h
    exact ⟨hle, rfl, rfl⟩
  · rintro ⟨hle, rfl, rfl⟩
    exact ⟨_, littleEndian_eq_ok_iff.mpr ⟨hle, rfl, rfl⟩, rfl⟩

theorem uint8_eq_ok_iff {value : UInt8} {r r' : Reader} :
    r.uint8 = .ok (value, r') ↔ ∃ rest, r.rest = value :: rest ∧ r' = ⟨r.pos + 1, rest⟩ := by
  refine map_littleEndian_eq_ok_iff.trans ?_
  rcases hrest : r.rest with _ | ⟨b, rest⟩
  · simp
  · simp [Octets.ofLittleEndian, eq_comm]

theorem uint16LE_eq_ok_iff {value : UInt16} {r r' : Reader} :
    r.uint16LE = .ok (value, r') ↔
      2 ≤ r.rest.length ∧ value = UInt16.ofNat (Octets.ofLittleEndian (r.rest.take 2)) ∧
        r' = ⟨r.pos + 2, r.rest.drop 2⟩ :=
  map_littleEndian_eq_ok_iff

theorem uint32LE_eq_ok_iff {value : UInt32} {r r' : Reader} :
    r.uint32LE = .ok (value, r') ↔
      4 ≤ r.rest.length ∧ value = UInt32.ofNat (Octets.ofLittleEndian (r.rest.take 4)) ∧
        r' = ⟨r.pos + 4, r.rest.drop 4⟩ :=
  map_littleEndian_eq_ok_iff

theorem int32LE_eq_ok_iff {value : Int32} {r r' : Reader} :
    r.int32LE = .ok (value, r') ↔
      4 ≤ r.rest.length ∧ value = (UInt32.ofNat (Octets.ofLittleEndian (r.rest.take 4))).toInt32 ∧
        r' = ⟨r.pos + 4, r.rest.drop 4⟩ :=
  map_littleEndian_eq_ok_iff (g := fun n => (UInt32.ofNat n).toInt32)

/-- The octets of a word stand where it was read. -/
theorem rest_of_int32LE {value : Int32} {r r' : Reader} (h : r.int32LE = .ok (value, r')) :
    r.rest = Octets.littleEndian 4 value.toUInt32.toNat ++ r'.rest := by
  obtain ⟨hfour, rfl, rfl⟩ := int32LE_eq_ok_iff.mp h
  rw [UInt32.toUInt32_toInt32, Octets.littleEndian_toNat_ofNat (List.length_take_of_le hfour),
    List.take_append_drop]

theorem rest_of_uint16LE {value : UInt16} {r r' : Reader} (h : r.uint16LE = .ok (value, r')) :
    r.rest = Octets.littleEndian 2 value.toNat ++ r'.rest := by
  obtain ⟨htwo, rfl, rfl⟩ := uint16LE_eq_ok_iff.mp h
  rw [Octets.littleEndian_toNat_ofNat_two (List.length_take_of_le htwo), List.take_append_drop]

theorem int32BE_eq_ok_iff {value : Int32} {r r' : Reader} :
    r.int32BE = .ok (value, r') ↔
      4 ≤ r.rest.length ∧ value = (UInt32.ofNat (Octets.ofBigEndian (r.rest.take 4))).toInt32 ∧
        r' = ⟨r.pos + 4, r.rest.drop 4⟩ := by
  refine (map_eq_ok_iff (g := fun n => (UInt32.ofNat n).toInt32)).trans ⟨?_, ?_⟩
  · rintro ⟨n, h, rfl⟩
    obtain ⟨hle, rfl, rfl⟩ := bigEndian_eq_ok_iff.mp h
    exact ⟨hle, rfl, rfl⟩
  · rintro ⟨hle, rfl, rfl⟩
    exact ⟨_, bigEndian_eq_ok_iff.mpr ⟨hle, rfl, rfl⟩, rfl⟩

theorem takeUntil_eq_ok_iff {delimiter : UInt8} {piece : List UInt8} {r r' : Reader} :
    r.takeUntil delimiter = .ok (piece, r') ↔
      ∃ after, r.rest = piece ++ delimiter :: after ∧ delimiter ∉ piece ∧
        r' = ⟨r.pos + piece.length + 1, after⟩ := by
  have hsplit := List.takeWhile_append_dropWhile (p := (· != delimiter)) (l := r.rest)
  have hmem : delimiter ∉ r.rest.takeWhile (· != delimiter) := by
    intro h
    simpa using List.mem_takeWhile_imp h
  unfold takeUntil
  rcases hrest : r.rest.dropWhile (· != delimiter) with _ | ⟨d, after⟩
  · simp only [reduceCtorEq, false_iff]
    rintro ⟨after, h, hnot, -⟩
    have hall := List.dropWhile_eq_nil_iff.mp hrest delimiter (by simp [h])
    simp at hall
  · have hd : d = delimiter := by
      have := List.head_dropWhile_not (p := (· != delimiter)) (l := r.rest) (by simp [hrest])
      simpa [hrest] using this
    subst hd
    rw [hrest] at hsplit
    simp only [Except.ok.injEq, Prod.mk.injEq]
    constructor
    · rintro ⟨rfl, rfl⟩
      exact ⟨after, hsplit.symm, hmem, rfl⟩
    · rintro ⟨after', h, hnot, rfl⟩
      -- the first delimiter is the one after `piece`, since there is none in it
      have hpiece : r.rest.takeWhile (· != d) = piece := by
        rw [h, List.takeWhile_append_of_pos (fun a ha => by
          simpa using fun hEq : a = d => hnot (hEq ▸ ha))]
        simp
      have hafter : after' = after := by
        rw [hpiece, h] at hsplit
        simpa using hsplit.symm
      exact ⟨hpiece, by rw [hpiece, hafter]⟩

theorem cstring_eq_ok_iff {text : String} {r r' : Reader} :
    r.cstring = .ok (text, r') ↔
      ∃ piece after, r.rest = piece ++ 0 :: after ∧ 0 ∉ piece ∧
        text = String.ofList (Text.Utf8.decode piece) ∧ r' = ⟨r.pos + piece.length + 1, after⟩ := by
  refine (map_eq_ok_iff (g := fun piece => String.ofList (Text.Utf8.decode piece))).trans ⟨?_, ?_⟩
  · rintro ⟨piece, h, rfl⟩
    obtain ⟨after, hrest, hnot, rfl⟩ := takeUntil_eq_ok_iff.mp h
    exact ⟨piece, after, hrest, hnot, rfl, rfl⟩
  · rintro ⟨piece, after, hrest, hnot, rfl, rfl⟩
    exact ⟨piece, takeUntil_eq_ok_iff.mpr ⟨after, hrest, hnot, rfl⟩, rfl⟩

end Reader

namespace Reply

variable {α β : Type}

/-! ## One step back -/

theorem bind_eq_next_iff {m : Reply α} {k : α → Reply β} {r r' : Reader} {noted noted' : List Fact}
    {b : β} :
    (m >>= k) r noted = .next b r' noted' ↔
      ∃ a r₁ noted₁, m r noted = .next a r₁ noted₁ ∧ k a r₁ noted₁ = .next b r' noted' := by
  -- the second reader starts where the first one got to, if it got anywhere
  rcases h : m r noted with ⟨a, r₁, noted₁⟩ | ⟨fault, noted₁⟩
  · rw [bind_next h]
    simp
  · rw [bind_stop h]
    simp

theorem bind_read_ok {op : Reader.Read α} {k : α → Reply β} {r r' : Reader} {a : α}
    (h : op r = .ok (a, r')) (noted : List Fact) : (read op >>= k) r noted = k a r' noted :=
  bind_next (by unfold read; rw [h])

theorem bind_read_error {op : Reader.Read α} {k : α → Reply β} {r : Reader} {e : ReadError}
    (h : op r = .error e) (noted : List Fact) :
    (read op >>= k) r noted = .stop (.unreadable e) noted :=
  bind_stop (by unfold read; rw [h])

theorem bind_accept_sealed {k : Unit → Reply β} {s : Situation} {phase : Phase}
    (h : phase ∈ s.sealed) (r : Reader) (noted : List Fact) :
    (accept s phase >>= k) r noted = .stop (.unexpected phase) noted :=
  bind_stop (by unfold accept; rw [if_pos h]; rfl)

theorem bind_accept_open {k : Unit → Reply β} {s : Situation} {phase : Phase}
    (h : phase ∉ s.sealed) (r : Reader) (noted : List Fact) :
    (accept s phase >>= k) r noted = k () r noted :=
  bind_next (by unfold accept; rw [if_neg h]; rfl)

theorem bind_note (fact : Fact) (k : Unit → Reply β) (r : Reader) (noted : List Fact) :
    (note fact >>= k) r noted = k () r (fact :: noted) :=
  bind_next rfl

theorem bind_require_some {value : Option α} {a : α} (h : value = some a) (fault : Fault)
    (k : α → Reply β) (r : Reader) (noted : List Fact) :
    (require value fault >>= k) r noted = k a r noted :=
  bind_next (by rw [h]; rfl)

theorem pure_eq_next_iff {a b : α} {r r' : Reader} {noted noted' : List Fact} :
    (pure a : Reply α) r noted = .next b r' noted' ↔ b = a ∧ r' = r ∧ noted' = noted := by
  rw [pure_run]
  simp [eq_comm]

theorem read_eq_next_iff {op : Reader.Read α} {r r' : Reader} {noted noted' : List Fact} {a : α} :
    read op r noted = .next a r' noted' ↔ op r = .ok (a, r') ∧ noted' = noted := by
  unfold read
  rcases op r with e | ⟨b, r₁⟩
  · simp
  · simp [eq_comm, and_assoc]

/-! ## What is noted and yielded -/

/-- Whatever is read, the facts noted on the way satisfy `fact`, and what is yielded
satisfies `result`. -/
def Yields (fact : Fact → Prop) (result : α → Prop) (m : Reply α) : Prop :=
  ∀ r noted, match m r noted with
    | .next a _ noted' => result a ∧ ∃ new, noted' = new ++ noted ∧ ∀ f ∈ new, fact f
    | .stop _ noted' => ∃ new, noted' = new ++ noted ∧ ∀ f ∈ new, fact f

variable {fact : Fact → Prop} {result : β → Prop}

theorem Yields.mono {m : Reply β} (h : Yields fact result m) {fact' : Fact → Prop}
    {result' : β → Prop} (hfact : ∀ f, fact f → fact' f) (hresult : ∀ b, result b → result' b) :
    Yields fact' result' m := by
  intro r noted
  have hrun := h r noted
  rcases hm : m r noted with ⟨b, r', noted'⟩ | ⟨fault, noted'⟩
  · rw [hm] at hrun
    obtain ⟨hb, new, rfl, hnew⟩ := hrun
    exact ⟨hresult b hb, new, rfl, fun f hf => hfact f (hnew f hf)⟩
  · rw [hm] at hrun
    obtain ⟨new, rfl, hnew⟩ := hrun
    exact ⟨new, rfl, fun f hf => hfact f (hnew f hf)⟩

@[simp] theorem yields_pure {b : β} (h : result b) : Yields fact result (pure b : Reply β) :=
  fun _ _ => ⟨h, [], rfl, by simp⟩

@[simp] theorem yields_fail (fault : Fault) : Yields fact result (fail fault : Reply β) :=
  fun _ _ => ⟨[], rfl, by simp⟩

@[simp] theorem yields_bind {m : Reply α} {k : α → Reply β} (hm : Yields fact (fun _ => True) m)
    (hk : ∀ a, Yields fact result (k a)) : Yields fact result (m >>= k) := by
  intro r noted
  have hfirst := hm r noted
  rcases h : m r noted with ⟨a, r₁, noted₁⟩ | ⟨fault, noted₁⟩
  · rw [h] at hfirst
    obtain ⟨-, new, rfl, hnew⟩ := hfirst
    rw [bind_next h]
    have hnext := hk a r₁ (new ++ noted)
    rcases h' : k a r₁ (new ++ noted) with ⟨b, r₂, noted₂⟩ | ⟨fault, noted₂⟩
    · rw [h'] at hnext
      obtain ⟨hb, new', rfl, hnew'⟩ := hnext
      exact ⟨hb, new' ++ new, by simp, List.forall_mem_append.mpr ⟨hnew', hnew⟩⟩
    · rw [h'] at hnext
      obtain ⟨new', rfl, hnew'⟩ := hnext
      exact ⟨new' ++ new, by simp, List.forall_mem_append.mpr ⟨hnew', hnew⟩⟩
  · rw [h] at hfirst
    rw [bind_stop h]
    exact hfirst

@[simp] theorem yields_ite {c : Prop} [Decidable c] {m₁ m₂ : Reply β} (h₁ : Yields fact result m₁)
    (h₂ : Yields fact result m₂) : Yields fact result (if c then m₁ else m₂) := by
  split
  · exact h₁
  · exact h₂

@[simp] theorem yields_read (op : Reader.Read α) : Yields fact (fun _ => True) (read op) := by
  intro r noted
  unfold read
  rcases op r with e | ⟨a, r'⟩
  · exact ⟨[], rfl, by simp⟩
  · exact ⟨trivial, [], rfl, by simp⟩

@[simp] theorem yields_require (value : Option α) (fault : Fault) :
    Yields fact (fun _ => True) (require value fault) := by
  cases value with
  | none => exact yields_fail fault
  | some a => exact yields_pure trivial

@[simp] theorem yields_note {f : Fact} (h : fact f) : Yields fact (fun _ => True) (note f) :=
  fun _ _ => ⟨trivial, [f], rfl, by simpa using h⟩

@[simp] theorem yields_peek? : Yields fact (fun _ => True) peek? :=
  fun _ _ => ⟨trivial, [], rfl, by simp⟩

@[simp] theorem yields_takeRest : Yields fact (fun _ => True) takeRest :=
  fun _ _ => ⟨trivial, [], rfl, by simp⟩

@[simp] theorem yields_accept (s : Situation) (phase : Phase) :
    Yields fact (fun _ => True) (accept s phase) := by
  unfold accept
  exact yields_ite (yields_fail _) (yields_pure trivial)

/-- A payload as it has been read when a reader of whole replies is through. -/
def Step.reading : Step Ending → Reading
  | .next ending _ noted => ⟨noted.reverse, .ok ending⟩
  | .stop fault noted => ⟨noted.reverse, .error fault⟩

theorem readAll_eq (m : Reply Ending) (payload : List UInt8) :
    m.readAll payload = (m (Reader.ofPayload payload) []).reading := by
  unfold readAll
  rcases m (Reader.ofPayload payload) [] with ⟨ending, r', noted⟩ | ⟨fault, noted⟩
  · rfl
  · rfl

/-- What holds of a reader holds of the reading it ends in. -/
theorem Yields.reading {result : Ending → Prop} {m : Reply Ending} (h : Yields fact result m)
    (r : Reader) :
    (∀ f ∈ (m r []).reading.facts, fact f) ∧
      ∀ ending, (m r []).reading.ending = .ok ending → result ending := by
  have hrun := h r []
  rcases hm : m r [] with ⟨a, r', noted⟩ | ⟨fault, noted⟩
  · rw [hm] at hrun
    obtain ⟨ha, new, rfl, hnew⟩ := hrun
    simpa [Step.reading] using ⟨hnew, ha⟩
  · rw [hm] at hrun
    obtain ⟨new, rfl, hnew⟩ := hrun
    simpa [Step.reading] using hnew

end Reply

end ServerProbe

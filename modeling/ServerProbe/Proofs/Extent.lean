/-
How far a reader goes.

Most readers go as far as what they read is long and no further, and they need all of it:
what follows makes no difference to them, and if the payload ends before, they say that it
does. `Needs m octets a facts` says this of a reader and the octets that it reads. It goes
through `bind`, so it is proved of the primitive reads and then of a whole layout, field by
field. Its first half, `Reads`, says what is read out of octets that were written; its second
half, `Lacks`, says that the octets may not be cut short.
-/
import ServerProbe.Proofs.Reading
import ServerProbe.Proofs.Utf8

set_option autoImplicit false

namespace ServerProbe

/-! ## Texts in datagrams -/

/-- The octets of a text that can be ended by a zero octet. -/
structure Piece where
  octets : List UInt8
  free : 0 ∉ octets

namespace Piece

/-- The text as it is read: damage in it is read as U+FFFD. -/
def text (p : Piece) : String := String.ofList (Text.Utf8.decode p.octets)

/-- The octets with the zero octet that ends them. -/
def ended (p : Piece) : List UInt8 := p.octets ++ [0]

/-- A text as it is written. -/
def ofText (text : String) (h : '\x00' ∉ text.toList) : Piece where
  octets := Text.Utf8.encode text.toList
  free := fun hzero => h (Text.Utf8.zero_mem_encode.mp hzero)

/-- **A text is read as it was written.** -/
theorem text_eq {p : Piece} {text : String} (h : p.octets = Text.Utf8.encode text.toList) :
    p.text = text := by
  rw [Piece.text, h, Text.Utf8.decode_encode, String.ofList_toList]

end Piece

namespace Reply

variable {α β : Type}

/-! ## Reading on and running out -/

/-- A reader that comes to `octets`, followed by `rest`, passes over them, yields `a` and notes
`facts`, wherever it stands and whatever has been noted. -/
def Reads (m : Reply α) (octets rest : List UInt8) (a : α) (facts : List Fact) : Prop :=
  ∀ pos noted, m ⟨pos, octets ++ rest⟩ noted
    = .next a ⟨pos + octets.length, rest⟩ (facts.reverse ++ noted)

/-- A reader that comes to `octets`, followed by nothing, finds that something is missing, and
has noted the first few of `facts` by then. -/
def RunsOut (m : Reply α) (octets : List UInt8) (facts : List Fact) : Prop :=
  ∀ pos noted, ∃ e early, early <+: facts ∧
    m ⟨pos, octets⟩ noted = .stop (.unreadable e) (early.reverse ++ noted)

/-- A reader that comes to a first part of `octets`, followed by nothing, finds that something
is missing, unless the part is `enough`. -/
def Lacks (m : Reply α) (octets : List UInt8) (facts : List Fact) (enough : List UInt8 → Prop) :
    Prop :=
  ∀ cut, cut <+: octets → ¬enough cut → RunsOut m cut facts

/-- A reader needs all of `octets` to yield `a` and note `facts`, and nothing beyond. -/
structure Needs (m : Reply α) (octets : List UInt8) (a : α) (facts : List Fact) : Prop where
  reads : ∀ rest, Reads m octets rest a facts
  lacks : Lacks m octets facts (· = octets)

section Bind

variable {m : Reply α} {k : α → Reply β} {a : α} {b : β} {octets octets' rest : List UInt8}
  {facts facts' : List Fact}

theorem Reads.bind (h : Reads m octets (octets' ++ rest) a facts)
    (h' : Reads (k a) octets' rest b facts') :
    Reads (m >>= k) (octets ++ octets') rest b (facts ++ facts') := by
  intro pos noted
  rw [List.append_assoc, bind_next (h pos noted), h', List.length_append, List.reverse_append,
    List.append_assoc, Nat.add_assoc]

/-- A second reader that needs nothing reads on from where the first one got to. -/
theorem Reads.followed (h : Reads m octets rest a facts) (h' : Needs (k a) [] b facts') :
    Reads (m >>= k) octets rest b (facts ++ facts') := by
  intro pos noted
  have hnext := h'.reads rest (pos + octets.length) (facts.reverse ++ noted)
  rw [bind_next (h pos noted), List.reverse_append, List.append_assoc]
  exact hnext

theorem RunsOut.bind (h : RunsOut m octets facts) : RunsOut (m >>= k) octets (facts ++ facts') := by
  intro pos noted
  obtain ⟨e, early, hearly, hrun⟩ := h pos noted
  exact ⟨e, early, hearly.trans (List.prefix_append _ _), bind_stop hrun⟩

/-- What is missing may be missed by the second reader only. -/
theorem Reads.bind_runsOut (h : Reads m octets octets' a facts)
    (h' : RunsOut (k a) octets' facts') :
    RunsOut (m >>= k) (octets ++ octets') (facts ++ facts') := by
  intro pos noted
  obtain ⟨e, early, hearly, hrun⟩ := h' (pos + octets.length) (facts.reverse ++ noted)
  refine ⟨e, facts ++ early, (List.prefix_append_right_inj facts).mpr hearly, ?_⟩
  rw [bind_next (h pos noted), hrun, List.reverse_append, List.append_assoc]

theorem Lacks.mono {enough enough' : List UInt8 → Prop} (h : Lacks m octets facts enough)
    (hmore : ∀ cut, enough cut → enough' cut) : Lacks m octets facts enough' :=
  fun cut hcut hnot => h cut hcut fun henough => hnot (hmore cut henough)

/-- What the first reader lacks is lacking, whatever the second one would read. -/
theorem Lacks.bind {enough : List UInt8 → Prop} (h : Lacks m octets facts enough)
    (more : List Fact) : Lacks (m >>= k) octets (facts ++ more) enough :=
  fun cut hcut hnot => (h cut hcut hnot).bind

/-- If the first reader gets what it needs, the second one may lack something. -/
theorem Needs.lacks_bind {enough : List UInt8 → Prop} (h : Needs m octets a facts)
    (h' : Lacks (k a) octets' facts' enough) :
    Lacks (m >>= k) (octets ++ octets') (facts ++ facts')
      fun cut => ∃ tail, enough tail ∧ cut = octets ++ tail := by
  intro cut hcut hnot
  by_cases hfirst : octets <+: cut
  · obtain ⟨tail, rfl⟩ := hfirst
    have htail : tail <+: octets' := (List.prefix_append_right_inj octets).mp hcut
    exact (h.reads tail).bind_runsOut (h' tail htail fun henough => hnot ⟨tail, henough, rfl⟩)
  · have hpart : cut <+: octets :=
      (List.prefix_or_prefix_of_prefix hcut (List.prefix_append octets octets')).resolve_right
        hfirst
    refine (h.lacks cut hpart ?_).bind
    rintro rfl
    exact hfirst List.prefix_rfl

/-- **Two readers need what each of them needs.** -/
theorem Needs.bind (h : Needs m octets a facts) (h' : Needs (k a) octets' b facts') :
    Needs (m >>= k) (octets ++ octets') b (facts ++ facts') where
  reads := fun rest => (h.reads (octets' ++ rest)).bind (h'.reads rest)
  lacks := (h.lacks_bind h'.lacks).mono <| by
    rintro cut ⟨tail, rfl, rfl⟩
    rfl

end Bind

/-- What a reader needs is not the beginning of something else that it needs. -/
theorem Needs.prefix_free {m : Reply α} {octets octets' : List UInt8} {a a' : α}
    {facts facts' : List Fact} (h : Needs m octets a facts) (h' : Needs m octets' a' facts')
    (hbegins : octets <+: octets') : octets = octets' := by
  by_contra hne
  obtain ⟨e, early, -, hstop⟩ := h'.lacks octets hbegins hne 0 []
  have hnext := h.reads [] 0 []
  rw [List.append_nil, hstop] at hnext
  cases hnext

/-- A reader that needs nothing yields what it yields wherever it stands. -/
theorem needs_nothing {m : Reply α} {a : α} {facts : List Fact}
    (h : ∀ r noted, m r noted = .next a r (facts.reverse ++ noted)) : Needs m [] a facts where
  reads := fun rest pos noted => h ⟨pos, rest⟩ noted
  lacks := fun _ hcut hne => absurd (List.prefix_nil.mp hcut) hne

theorem needs_pure (a : α) : Needs (pure a : Reply α) [] a [] :=
  needs_nothing fun _ _ => rfl

theorem needs_note (fact : Fact) : Needs (note fact) [] () [fact] :=
  needs_nothing fun _ _ => rfl

theorem needs_accept {s : Situation} {phase : Phase} (h : phase ∉ s.sealed) :
    Needs (accept s phase) [] () [] :=
  needs_nothing fun _ _ => by rw [accept, if_neg h]; rfl

theorem needs_require {value : Option α} {a : α} {fault : Fault} (h : value = some a) :
    Needs (require value fault) [] a [] :=
  needs_nothing fun _ _ => by rw [h]; rfl

/-! ## The primitive reads -/

theorem reads_read {op : Reader.Read α} {octets rest : List UInt8} {a : α}
    (h : ∀ pos, op ⟨pos, octets ++ rest⟩ = .ok (a, ⟨pos + octets.length, rest⟩)) :
    Reads (read op) octets rest a [] := by
  intro pos noted
  rw [read_eq_next_iff]
  exact ⟨h pos, rfl⟩

theorem runsOut_read {op : Reader.Read α} {octets : List UInt8}
    (h : ∀ pos, ∃ e, op ⟨pos, octets⟩ = .error e) : RunsOut (read op) octets [] := by
  intro pos noted
  obtain ⟨e, he⟩ := h pos
  refine ⟨e, [], List.prefix_rfl, ?_⟩
  unfold read
  rw [he]
  rfl

theorem bytes_append (octets rest : List UInt8) (pos : Nat) :
    Reader.bytes octets.length ⟨pos, octets ++ rest⟩
      = .ok (octets, ⟨pos + octets.length, rest⟩) := by
  rw [Reader.bytes_eq_ok_iff]
  simp

theorem bytes_of_short {n : Nat} {r : Reader} (h : r.rest.length < n) :
    ∃ e, r.bytes n = .error e := by
  refine ⟨.truncated r.pos n r.remaining, if_neg ?_⟩
  rw [List.length_take]
  omega

/-- A prefix of a list that is another one is shorter. -/
theorem length_lt_of_cut {cut octets : List UInt8} (h : cut <+: octets) (hne : cut ≠ octets) :
    cut.length < octets.length :=
  Nat.lt_of_le_of_ne h.length_le fun heq => hne (h.eq_of_length heq)

/-- What is read from a fixed number of octets needs them. -/
theorem needs_fixed {op : Reader.Read α} {g : List UInt8 → α} {octets : List UInt8}
    (h : ∀ r, op r = (r.bytes octets.length).map fun (piece, after) => (g piece, after)) :
    Needs (read op) octets (g octets) [] where
  reads := fun rest => reads_read fun pos => by
    rw [h, bytes_append]
    rfl
  lacks := fun cut hcut hne => runsOut_read fun pos => by
    obtain ⟨e, he⟩ := bytes_of_short (r := ⟨pos, cut⟩) (length_lt_of_cut hcut hne)
    exact ⟨e, by rw [h, he]; rfl⟩

theorem needs_skip (octets : List UInt8) :
    Needs (read (Reader.skip octets.length)) octets () [] :=
  needs_fixed (g := fun _ => ()) fun _ => rfl

theorem needs_uint8 (value : UInt8) : Needs (read Reader.uint8) [value] value [] := by
  have h : Needs (read Reader.uint8) [value] _ [] :=
    needs_fixed (g := fun piece => UInt8.ofNat (Octets.ofLittleEndian piece)) fun r => by
      rw [Reader.uint8, Reader.littleEndian, List.length_singleton]
      cases r.bytes 1 <;> rfl
  simpa [Octets.ofLittleEndian] using h

/-- A number that is read least octet first from as many octets as it was written in. -/
theorem needs_word (op : Reader.Read α) {g : Nat → α} {width n : Nat}
    (h : ∀ r, op r = (r.littleEndian width).map fun (n, after) => (g n, after))
    (hn : n < Nat.pow 0x100 width) : Needs (read op) (Octets.littleEndian width n) (g n) [] := by
  have hfixed : Needs (read op) (Octets.littleEndian width n) _ [] :=
    needs_fixed (g := fun piece => g (Octets.ofLittleEndian piece)) fun r => by
      rw [h, Reader.littleEndian, Octets.length_littleEndian]
      cases r.bytes width <;> rfl
  rwa [Octets.ofLittleEndian_littleEndian, Nat.mod_eq_of_lt hn] at hfixed

theorem needs_uint16LE (value : UInt16) :
    Needs (read Reader.uint16LE) (Octets.littleEndian 2 value.toNat) value [] := by
  simpa using needs_word Reader.uint16LE (g := UInt16.ofNat) (fun _ => rfl) value.toNat_lt

theorem needs_uint32LE (value : UInt32) :
    Needs (read Reader.uint32LE) (Octets.littleEndian 4 value.toNat) value [] := by
  simpa using needs_word Reader.uint32LE (g := UInt32.ofNat) (fun _ => rfl) value.toNat_lt

theorem needs_uint64LE (value : UInt64) :
    Needs (read Reader.uint64LE) (Octets.littleEndian 8 value.toNat) value [] := by
  simpa using needs_word Reader.uint64LE (g := UInt64.ofNat) (fun _ => rfl) value.toNat_lt

theorem needs_int32LE (value : Int32) :
    Needs (read Reader.int32LE) (Octets.littleEndian 4 value.toUInt32.toNat) value [] := by
  simpa using needs_word Reader.int32LE (g := fun n => (UInt32.ofNat n).toInt32)
    (fun _ => rfl) value.toUInt32.toNat_lt

theorem needs_int32BE (value : Int32) :
    Needs (read Reader.int32BE) (Octets.bigEndian 4 value.toUInt32.toNat) value [] := by
  have hfixed : Needs (read Reader.int32BE) (Octets.bigEndian 4 value.toUInt32.toNat) _ [] :=
    needs_fixed (g := fun piece => (UInt32.ofNat (Octets.ofBigEndian piece)).toInt32) fun r => by
      rw [Reader.int32BE, Reader.bigEndian, Octets.length_bigEndian]
      cases r.bytes 4 <;> rfl
  have hvalue : value.toUInt32.toNat < Nat.pow 0x100 4 := value.toUInt32.toNat_lt
  rw [Octets.ofBigEndian_bigEndian, Nat.mod_eq_of_lt hvalue] at hfixed
  simpa using hfixed

/-- A text needs its octets and the zero octet that ends it. -/
theorem needs_cstring (p : Piece) : Needs (read Reader.cstring) p.ended p.text [] where
  reads := fun rest => reads_read fun pos => by
    rw [Reader.cstring_eq_ok_iff]
    exact ⟨p.octets, rest, by simp [Piece.ended], p.free, rfl, by simp [Piece.ended, Nat.add_assoc]⟩
  lacks := fun cut hcut hne => runsOut_read fun pos => by
    -- the zero octet is the last, so a cut is without it
    have hfree : ∀ b ∈ cut, (b != 0) = true := by
      intro b hb
      have hpiece : cut <+: p.octets := by
        rcases List.prefix_concat_iff.mp hcut with heq | h
        · exact absurd heq hne
        · exact h
      rw [bne_iff_ne]
      rintro rfl
      exact p.free (hpiece.subset hb)
    refine ⟨.unterminated pos, ?_⟩
    rw [Reader.cstring, Reader.takeUntil, List.dropWhile_eq_nil_iff.mpr hfree]
    rfl

theorem needs_expect (marker : List UInt8) : Needs (read (Reader.expect marker)) marker () [] where
  reads := fun rest => reads_read fun pos => by
    rw [Reader.expect, bytes_append]
    exact if_pos rfl
  lacks := fun cut hcut hne => runsOut_read fun pos => by
    obtain ⟨e, he⟩ := bytes_of_short (r := ⟨pos, cut⟩) (length_lt_of_cut hcut hne)
    exact ⟨e, by rw [Reader.expect, he]⟩

/-! ## Field by field -/

section Fields

variable {b : β} {octets : List UInt8} {facts : List Fact}

theorem needs_octet {value : UInt8} {k : UInt8 → Reply β} (h : Needs (k value) octets b facts) :
    Needs (read Reader.uint8 >>= k) (value :: octets) b facts :=
  (needs_uint8 value).bind h

theorem needs_text {p : Piece} {k : String → Reply β} (h : Needs (k p.text) octets b facts) :
    Needs (read Reader.cstring >>= k) (p.ended ++ octets) b facts :=
  (needs_cstring p).bind h

/-- A text may be the last that is read. -/
theorem needs_lastText {p : Piece} {k : String → Reply β} (h : Needs (k p.text) [] b facts) :
    Needs (read Reader.cstring >>= k) p.ended b facts := by
  simpa using needs_text h

theorem needs_noted {fact : Fact} {k : Unit → Reply β} (h : Needs (k ()) octets b facts) :
    Needs (note fact >>= k) octets b (fact :: facts) :=
  (needs_note fact).bind h

end Fields

/-- What is read when a reader takes in a whole payload. -/
theorem Reads.readAll {m : Reply Ending} {octets : List UInt8} {ending : Ending}
    {facts : List Fact} (h : Reads m octets [] ending facts) :
    m.readAll octets = ⟨facts, .ok ending⟩ := by
  have hrun := h 0 []
  rw [List.append_nil] at hrun
  rw [readAll_eq, Reader.ofPayload, hrun, Step.reading, List.append_nil, List.reverse_reverse]

end Reply

end ServerProbe

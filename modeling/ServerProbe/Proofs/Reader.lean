/-
What a reader passes over.

A read that succeeds has passed over the octets of what it hands back, and it succeeds exactly
if these come next (`bytes_passes_iff` and its like, one for each read). A read that fails
names the position where it was tried.
-/
import ServerProbe.Proofs.Reading

set_option autoImplicit false

namespace ServerProbe

namespace Reader

/-! ## What a reader passes over -/

/-- A read whose result is made something else. -/
def yielding {α β : Type} (f : α → β) (op : Read α) : Read β := fun r =>
  (op r).map fun (a, after) => (f a, after)

/-- A read that cannot fail. -/
def always {α : Type} (f : Reader → α × Reader) : Read α := fun r => .ok (f r)

/-- Whether a reader has gone on to another by passing over a piece. -/
def Passes (r : Reader) (piece : List UInt8) (after : Reader) : Prop :=
  r.rest = piece ++ after.rest ∧ after.pos = r.pos + piece.length

variable {r after : Reader} {piece : List UInt8}

theorem passes_nil_iff : r.Passes [] after ↔ after = r := by
  obtain ⟨pos, rest⟩ := r
  obtain ⟨pos', rest'⟩ := after
  simp [Passes, eq_comm, and_comm]

theorem passes_iff : r.Passes piece after ↔ piece <+: r.rest ∧
    after = ⟨r.pos + piece.length, r.rest.drop piece.length⟩ := by
  obtain ⟨pos, rest⟩ := r
  obtain ⟨pos', rest'⟩ := after
  constructor
  · rintro ⟨hrest, hpos⟩
    dsimp only at hrest hpos
    subst hrest hpos
    exact ⟨List.prefix_append _ _, by simp⟩
  · rintro ⟨⟨tail, rfl⟩, hafter⟩
    obtain ⟨rfl, rfl⟩ := Reader.mk.inj hafter
    exact ⟨by simp, rfl⟩

theorem yielding_eq_ok_iff {α β : Type} {f : α → β} {op : Read α} {b : β} :
    yielding f op r = .ok (b, after) ↔ ∃ a, op r = .ok (a, after) ∧ b = f a :=
  map_eq_ok_iff

theorem bytes_passes_iff {n : Nat} :
    r.bytes n = .ok (piece, after) ↔ piece.length = n ∧ r.Passes piece after := by
  rw [bytes_eq_ok_iff, passes_iff]
  constructor
  · rintro ⟨hle, rfl, rfl⟩
    have hlength : (r.rest.take n).length = n := List.length_take_of_le hle
    exact ⟨hlength, List.take_prefix n r.rest, by rw [hlength]⟩
  · rintro ⟨rfl, hbegins, rfl⟩
    exact ⟨hbegins.length_le, List.prefix_iff_eq_take.mp hbegins, rfl⟩

/-- What is made of a fixed number of octets by `f`, and is made into them again by `g`, takes
them. -/
theorem fixed_passes_iff {α : Type} {op : Read α} {width : Nat} {f : List UInt8 → α}
    {g : α → List UInt8}
    (hop : ∀ r, op r = (r.bytes width).map fun (piece, after) => (f piece, after))
    (hlength : ∀ a, (g a).length = width) (hself : ∀ a, f (g a) = a)
    (hback : ∀ bs, bs.length = width → g (f bs) = bs) {a : α} :
    op r = .ok (a, after) ↔ r.Passes (g a) after := by
  rw [hop, map_eq_ok_iff]
  constructor
  · rintro ⟨bs, hbytes, rfl⟩
    obtain ⟨hwidth, hpasses⟩ := bytes_passes_iff.mp hbytes
    rwa [hback bs hwidth]
  · intro hpasses
    exact ⟨g a, bytes_passes_iff.mpr ⟨hlength a, hpasses⟩, (hself a).symm⟩

/-- A number takes its octets if it has as many as it can need. -/
theorem littleEndian_passes_iff (width : Nat) {α : Type} {op : Read α} {f : Nat → α}
    {g : α → Nat}
    (hop : ∀ r, op r = (r.littleEndian width).map fun (n, after) => (f n, after))
    (hself : ∀ a, f (g a) = a) (hlt : ∀ a, g a < Nat.pow 0x100 width)
    (hback : ∀ n < Nat.pow 0x100 width, g (f n) = n) {a : α} :
    op r = .ok (a, after) ↔ r.Passes (Octets.littleEndian width (g a)) after := by
  refine fixed_passes_iff (f := fun bs => f (Octets.ofLittleEndian bs))
    (g := fun a => Octets.littleEndian width (g a)) (fun r => ?_)
    (fun a => Octets.length_littleEndian width _) (fun a => ?_) (fun bs hwidth => ?_)
  · rw [hop, littleEndian]
    rcases r.bytes width with e | ⟨bs, after⟩
    · rfl
    · rfl
  · rw [Octets.ofLittleEndian_littleEndian, Nat.mod_eq_of_lt (hlt a), hself]
  · subst hwidth
    rw [hback _ (Octets.ofLittleEndian_lt bs), Octets.littleEndian_ofLittleEndian]

theorem uint8_passes_iff {value : UInt8} :
    r.uint8 = .ok (value, after) ↔ r.Passes [value] after := by
  rw [uint8_eq_ok_iff]
  obtain ⟨pos', rest'⟩ := after
  constructor
  · rintro ⟨rest, hrest, hafter⟩
    obtain ⟨rfl, rfl⟩ := Reader.mk.inj hafter
    exact ⟨hrest, rfl⟩
  · rintro ⟨hrest, hpos⟩
    exact ⟨rest', hrest, congrArg (Reader.mk · rest') hpos⟩

theorem uint16LE_passes_iff {value : UInt16} :
    r.uint16LE = .ok (value, after) ↔ r.Passes (Octets.littleEndian 2 value.toNat) after :=
  littleEndian_passes_iff 2 (fun _ => rfl) (fun _ => UInt16.ofNat_toNat) UInt16.toNat_lt
    fun _ h => UInt16.toNat_ofNat_of_lt' h

theorem uint32LE_passes_iff {value : UInt32} :
    r.uint32LE = .ok (value, after) ↔ r.Passes (Octets.littleEndian 4 value.toNat) after :=
  littleEndian_passes_iff 4 (fun _ => rfl) (fun _ => UInt32.ofNat_toNat) UInt32.toNat_lt
    fun _ h => UInt32.toNat_ofNat_of_lt' h

theorem uint64LE_passes_iff {value : UInt64} :
    r.uint64LE = .ok (value, after) ↔ r.Passes (Octets.littleEndian 8 value.toNat) after :=
  littleEndian_passes_iff 8 (fun _ => rfl) (fun _ => UInt64.ofNat_toNat) UInt64.toNat_lt
    fun _ h => UInt64.toNat_ofNat_of_lt' h

theorem int32LE_passes_iff {value : Int32} :
    r.int32LE = .ok (value, after) ↔
      r.Passes (Octets.littleEndian 4 value.toUInt32.toNat) after :=
  littleEndian_passes_iff 4 (f := fun n => (UInt32.ofNat n).toInt32)
    (g := fun a => a.toUInt32.toNat) (fun _ => rfl)
    (fun _ => by rw [UInt32.ofNat_toNat, Int32.toInt32_toUInt32])
    (fun a => a.toUInt32.toNat_lt) fun _ h => UInt32.toNat_ofNat_of_lt' h

theorem int32BE_passes_iff {value : Int32} :
    r.int32BE = .ok (value, after) ↔ r.Passes (Octets.bigEndian 4 value.toUInt32.toNat) after := by
  refine fixed_passes_iff (f := fun bs => (UInt32.ofNat (Octets.ofBigEndian bs)).toInt32)
    (g := fun a => Octets.bigEndian 4 a.toUInt32.toNat) (fun r => ?_)
    (fun a => Octets.length_bigEndian 4 _) (fun a => ?_) (fun bs hwidth => ?_)
  · rw [int32BE, bigEndian]
    rcases r.bytes 4 with e | ⟨bs, after⟩
    · rfl
    · rfl
  · have hlt : a.toUInt32.toNat < Nat.pow 0x100 4 := a.toUInt32.toNat_lt
    rw [Octets.ofBigEndian_bigEndian, Nat.mod_eq_of_lt hlt, UInt32.ofNat_toNat,
      Int32.toInt32_toUInt32]
  · rw [UInt32.toUInt32_toInt32, Octets.bigEndian_toNat_ofNat hwidth]

theorem takeUntil_passes_iff {delimiter : UInt8} :
    r.takeUntil delimiter = .ok (piece, after) ↔
      delimiter ∉ piece ∧ r.Passes (piece ++ [delimiter]) after := by
  rw [takeUntil_eq_ok_iff]
  obtain ⟨pos', rest'⟩ := after
  constructor
  · rintro ⟨rest, hrest, hfree, hafter⟩
    obtain ⟨rfl, rfl⟩ := Reader.mk.inj hafter
    exact ⟨hfree, by simpa [Passes, Nat.add_assoc] using hrest⟩
  · rintro ⟨hfree, hrest, hpos⟩
    refine ⟨rest', by simpa using hrest, hfree, congrArg (Reader.mk · rest') ?_⟩
    simpa [Nat.add_assoc] using hpos

theorem expect_passes_iff {marker : List UInt8} :
    r.expect marker = .ok ((), after) ↔ r.Passes marker after := by
  unfold expect
  constructor
  · intro h
    split at h
    · cases h
    · next actual after' hbytes =>
      obtain ⟨-, hpasses⟩ := bytes_passes_iff.mp hbytes
      split at h
      · next heq =>
        cases h
        exact heq ▸ hpasses
      · cases h
  · intro h
    rw [bytes_passes_iff.mpr ⟨rfl, h⟩]
    exact if_pos rfl

theorem takeRest_passes_iff :
    r.takeRest = (piece, after) ↔ after.rest = [] ∧ r.Passes piece after := by
  obtain ⟨pos, rest⟩ := r
  obtain ⟨pos', rest'⟩ := after
  simp only [takeRest, Passes, Prod.mk.injEq, mk.injEq]
  constructor
  · rintro ⟨rfl, rfl, rfl⟩
    exact ⟨rfl, (List.append_nil _).symm, rfl⟩
  · rintro ⟨rfl, rfl, rfl⟩
    simp

theorem cstring_passes_iff {text : String} :
    r.cstring = .ok (text, after) ↔ ∃ piece, 0 ∉ piece ∧
      text = String.ofList (Text.Utf8.decode piece) ∧ r.Passes (piece ++ [0]) after := by
  refine (map_eq_ok_iff (g := fun piece => String.ofList (Text.Utf8.decode piece))).trans ⟨?_, ?_⟩
  · rintro ⟨piece, hread, rfl⟩
    obtain ⟨hfree, hpasses⟩ := takeUntil_passes_iff.mp hread
    exact ⟨piece, hfree, rfl, hpasses⟩
  · rintro ⟨piece, hfree, rfl, hpasses⟩
    exact ⟨piece, takeUntil_passes_iff.mpr ⟨hfree, hpasses⟩, rfl⟩

theorem takeUntil_iff_prefix {delimiter : UInt8} :
    (∃ after, r.takeUntil delimiter = .ok (piece, after)) ↔
      delimiter ∉ piece ∧ piece ++ [delimiter] <+: r.rest := by
  constructor
  · rintro ⟨after, hfound⟩
    obtain ⟨hfree, hpasses⟩ := takeUntil_passes_iff.mp hfound
    exact ⟨hfree, (passes_iff.mp hpasses).1⟩
  · rintro ⟨hfree, hbegins⟩
    exact ⟨_, takeUntil_passes_iff.mpr ⟨hfree, passes_iff.mpr ⟨hbegins, rfl⟩⟩⟩

theorem mem_iff_takeUntil {delimiter : UInt8} :
    delimiter ∈ r.rest ↔ ∃ piece after, r.takeUntil delimiter = .ok (piece, after) := by
  constructor
  · intro hmem
    obtain ⟨piece, tail, hsplit, hfree⟩ := List.eq_append_cons_of_mem hmem
    exact ⟨piece, takeUntil_iff_prefix.mpr ⟨hfree, tail, by simp [hsplit]⟩⟩
  · rintro ⟨piece, hfound⟩
    obtain ⟨-, hbegins⟩ := takeUntil_iff_prefix.mp hfound
    exact hbegins.subset (by simp)

/-! ## Where a read fails -/

theorem offset_of_map {α β : Type} {x : Except ReadError α} {g : α → β} {e : ReadError} {pos : Nat}
    (h : ∀ e, x = .error e → e.offset = pos) (herror : x.map g = .error e) : e.offset = pos := by
  rcases x with e' | a
  · cases herror
    exact h _ rfl
  · cases herror

theorem offset_of_bytes {n : Nat} {e : ReadError} (h : r.bytes n = .error e) :
    e.offset = r.pos := by
  unfold bytes at h
  dsimp only at h
  split at h
  · cases h
  · cases h
    rfl

theorem offset_of_littleEndian {width : Nat} {e : ReadError} (h : r.littleEndian width = .error e) :
    e.offset = r.pos :=
  offset_of_map (fun _ => offset_of_bytes) h

theorem offset_of_expect {marker : List UInt8} {e : ReadError} (h : r.expect marker = .error e) :
    e.offset = r.pos := by
  unfold expect at h
  split at h
  · next hbytes =>
    cases h
    exact offset_of_bytes hbytes
  · split at h
    · cases h
    · cases h
      rfl

theorem unterminated_of_takeUntil {delimiter : UInt8} {e : ReadError}
    (h : r.takeUntil delimiter = .error e) : delimiter ∉ r.rest ∧ e = .unterminated r.pos := by
  constructor
  · intro hmem
    obtain ⟨piece, after, hfound⟩ := mem_iff_takeUntil.mp hmem
    cases h.symm.trans hfound
  · unfold takeUntil at h
    split at h
    · cases h
      rfl
    · cases h

theorem offset_of_takeUntil {delimiter : UInt8} {e : ReadError}
    (h : r.takeUntil delimiter = .error e) : e.offset = r.pos := by
  rw [(unterminated_of_takeUntil h).2]
  rfl

end Reader

end ServerProbe

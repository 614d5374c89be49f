import Depot.Proofs.Cbor.Records
import Depot.Proofs.Steps
/-!
# What readers accept

Readers accept far more than is ever written: integers of any width, arrays with or without their
length, records with fields left out at the end or unknown ones behind. Whatever they accept, the
values they give are within bounds: a text or list has fewer than 2^64 bytes or entries, an integer
fits 64 bits.

`Gives read P` says that of a reader: from bytes in memory it gives values with the property `P`,
and leaves bytes in memory. Only arrays without a length make the memory necessary, since nothing
but the input bounds their entries.

## How the proof goes

What is told of the steps of a reader is told of the reader (`Yields.bind`), so that each lemma
follows the definition it is about. Faults need no care but one: behind an unknown alternative an
optional field goes on reading, so the bytes that such a fault carries have to be in memory too.
-/

namespace Depot.Cbor

/-! ## Values within bounds -/

theorem le_of_readBigEndian {width n : Nat} {input rest : Bytes} (hwidth : width ≤ 8)
    (h : readBigEndian width input = .ok (n, rest)) : n ≤ maxUInt64 := by
  obtain ⟨⟨b, rest'⟩, hb, h⟩ := bind_eq_ok h
  cases h
  unfold readBytes at hb
  split at hb
  · cases hb
    have hlt := Bytes.ofBigEndian_lt (input.take width)
    have hle := Nat.pow_le_pow_right (n := 256) (by decide)
      (Nat.le_trans (List.length_take_le width input) hwidth)
    exact Nat.le_of_lt_succ (Nat.lt_of_lt_of_le hlt hle)
  · cases hb

/-- The argument of a head has eight bytes at most. -/
theorem le_of_readArgument {low n : Nat} {input rest : Bytes}
    (h : readArgument low input = .ok (n, rest)) : n ≤ maxUInt64 := by
  have hmax : maxUInt64 = 0xFFFFFFFFFFFFFFFF := rfl
  unfold readArgument at h
  split at h
  · cases h
    omega
  · repeat' split at h
    · exact le_of_readBigEndian (by decide) h
    · exact le_of_readBigEndian (by decide) h
    · exact le_of_readBigEndian (by decide) h
    · exact le_of_readBigEndian (by decide) h
    · cases h

/-- The length of a text stands in its head. -/
theorem textFits_of_readText {input rest : Bytes} {s : String}
    (h : readText input = .ok (s, rest)) : TextFits s := by
  obtain ⟨⟨b, rest₁⟩, -, h⟩ := bind_eq_ok h
  dsimp only at h
  split at h
  · obtain ⟨⟨n, rest₂⟩, hn, h⟩ := bind_eq_ok h
    obtain ⟨⟨bytes, rest₃⟩, hbytes, h⟩ := bind_eq_ok h
    dsimp only at h
    split at h
    · rename_i hs
      cases h
      have hlength : bytes.length ≤ n := by
        unfold readBytes at hbytes
        split at hbytes
        · cases hbytes
          exact List.length_take_le n rest₂
        · cases hbytes
      rw [TextFits, Bytes.ofText_of_toText? hs]
      exact Nat.le_trans hlength (le_of_readArgument hn)
    · cases h
  · cases h

theorem textFits_of_readIdent {e : Entity} {input rest : Bytes} {i : Ident e}
    (h : Stored.read input = .ok (i, rest)) : TextFits i.text := by
  obtain ⟨⟨s, rest'⟩, hs, h⟩ := bind_eq_ok h
  cases h
  exact textFits_of_readText hs

theorem readField_eq_ok {α : Type} {read : Reader α} {left left' : Left} {input rest : Bytes}
    {x : α} (h : readField read left input = .ok (x, left', rest)) :
    read input = .ok (x, rest) := by
  obtain ⟨more, -, h⟩ := bind_eq_ok h
  split at h
  · obtain ⟨⟨y, rest'⟩, hread, h⟩ := bind_eq_ok h
    cases h
    exact hread
  · cases h

theorem decode_eq_ok {α : Type} [Stored α] {row : Bytes} {x : α} (h : decode row = .ok x) :
    ∃ rest, Stored.read row = .ok (x, rest) := by
  unfold decode at h
  split at h
  · rename_i hread
    cases h
    exact ⟨_, hread⟩
  · cases h

/-- An integer is read only if it fits. -/
theorem fitsInt64_of_readInt {input rest : Bytes} {i : Int} (h : readInt input = .ok (i, rest)) :
    fitsInt64 i = true := by
  have hmax : maxInt64 = 0x7FFFFFFFFFFFFFFF := rfl
  obtain ⟨⟨b, rest₁⟩, -, h⟩ := bind_eq_ok h
  dsimp only at h
  split at h
  · split at h
    · obtain ⟨⟨n, rest₂⟩, -, h⟩ := bind_eq_ok h
      dsimp only at h
      split at h
      · cases h
        simp only [fitsInt64, decide_eq_true_eq]
        omega
      · cases h
    · obtain ⟨⟨n, rest₂⟩, -, h⟩ := bind_eq_ok h
      dsimp only at h
      split at h
      · cases h
        simp only [fitsInt64, decide_eq_true_eq]
        omega
      · cases h
    · cases h
  · cases h

/-! ## Steps and readers -/

/-- The byte string has fewer than 2^64 bytes, as all those in memory have. -/
def InMemory (b : Bytes) : Prop := b.length ≤ maxUInt64

instance : DecidablePred InMemory := fun b => inferInstanceAs (Decidable (b.length ≤ maxUInt64))

section Yields

variable {α β : Type} {P Q : α → Prop} {R : β → Prop} {step : Except Fault α}

/-- The step gives a result with the property `P`, or fails. If it fails at an unknown alternative,
what follows that is in memory. -/
structure Yields (P : α → Prop) (step : Except Fault α) : Prop where
  result : ∀ x, step = .ok x → P x
  unknown : ∀ rest, step = .error (.unknownVariant rest) → InMemory rest

theorem yields_ok {x : α} (h : P x) : Yields P (.ok x) where
  result y hy := by
    cases hy
    exact h
  unknown rest hrest := by cases hrest

theorem yields_error {fault : Fault} (h : ∀ rest, fault ≠ .unknownVariant rest) :
    Yields P (.error fault) where
  result x hx := by cases hx
  unknown rest hrest := absurd (Except.error.inj hrest) (h rest)

theorem Yields.bind {next : α → Except Fault β} (h : Yields P step)
    (hnext : ∀ x, P x → Yields R (next x)) : Yields R (step >>= next) where
  result y hy := by
    obtain ⟨x, hx, hy⟩ := bind_eq_ok hy
    exact (hnext x (h.result x hx)).result y hy
  unknown rest hrest := by
    rcases bind_eq_error hrest with hstep | ⟨x, hx, hrest⟩
    · exact h.unknown rest hstep
    · exact (hnext x (h.result x hx)).unknown rest hrest

theorem Yields.mono (h : Yields P step) (hPQ : ∀ x, P x → Q x) : Yields Q step where
  result x hx := hPQ x (h.result x hx)
  unknown := h.unknown

/-- From bytes in memory the reader gives values with the property `P`, and leaves such bytes. -/
def Gives (read : Reader α) (P : α → Prop) : Prop :=
  ∀ ⦃input⦄, InMemory input → Yields (fun r => P r.1 ∧ InMemory r.2) (read input)

/-- The reader gives values of any kind. -/
abbrev Anything : α → Prop := fun _ => True

/-- What holds of every value that is read is given. -/
theorem Gives.and_of_value {read : Reader α} (h : Gives read Q)
    (hvalue : ∀ {input rest x}, read input = .ok (x, rest) → P x) : Gives read P := fun _ hin =>
  { result := fun r hr => ⟨hvalue hr, ((h hin).result r hr).2⟩
    unknown := (h hin).unknown }

end Yields

/-! ## Bytes and heads -/

theorem InMemory.drop {b : Bytes} (h : InMemory b) (n : Nat) : InMemory (b.drop n) :=
  Nat.le_trans (List.length_drop ▸ Nat.sub_le _ n) h

theorem mismatch_ne_unknown (b : UInt8) (input rest : Bytes) :
    mismatch b input ≠ .unknownVariant rest := by
  unfold mismatch
  split <;> nofun

theorem gives_readByte : Gives readByte Anything := by
  intro input hin
  cases input with
  | nil => exact yields_error nofun
  | cons b rest => exact yields_ok ⟨trivial, hin.drop 1⟩

theorem gives_readBytes (n : Nat) : Gives (readBytes n) Anything := by
  intro input hin
  unfold readBytes
  split
  · exact yields_ok ⟨trivial, hin.drop n⟩
  · exact yields_error nofun

theorem gives_readArgument (low : Nat) : Gives (readArgument low) (· ≤ maxUInt64) := by
  have hwide (width : Nat) : Gives (readBigEndian width) Anything := fun _ hin =>
    (gives_readBytes width hin).bind fun _ h => yields_ok ⟨trivial, h.2⟩
  refine Gives.and_of_value (Q := Anything) (fun input hin => ?_) le_of_readArgument
  unfold readArgument
  split
  · exact yields_ok ⟨trivial, hin⟩
  · repeat' split
    · exact hwide 1 hin
    · exact hwide 2 hin
    · exact hwide 4 hin
    · exact hwide 8 hin
    · exact yields_error nofun

theorem yields_peek {input : Bytes} : Yields Anything (peek input) := by
  unfold peek
  split
  · exact yields_error nofun
  · split
    · exact yields_error nofun
    · exact yields_ok trivial

/-! ## Single items -/

theorem gives_readUInt64 : Gives readUInt64 Anything := by
  intro input hin
  have hnat : Yields (fun r => Anything r.1 ∧ InMemory r.2) (readNat input) := by
    refine (gives_readByte hin).bind fun ⟨b, rest⟩ ⟨_, hrest⟩ => ?_
    dsimp only
    split
    · exact (gives_readArgument _ hrest).mono fun r h => ⟨trivial, h.2⟩
    · exact yields_error (mismatch_ne_unknown b rest)
  exact hnat.bind fun _ h => yields_ok ⟨trivial, h.2⟩

/-- An argument that has to fit 64 bits with a sign. -/
theorem yields_signed {low : Nat} {rest : Bytes} (hrest : InMemory rest) (back : Nat → Int) :
    Yields (fun r => Anything r.1 ∧ InMemory r.2)
      (do
        let (n, rest) ← readArgument low rest
        if n ≤ maxInt64 then .ok (back n, rest) else .error .other) := by
  refine (gives_readArgument low hrest).bind fun _ h => ?_
  dsimp only
  split
  · exact yields_ok ⟨trivial, h.2⟩
  · exact yields_error nofun

theorem gives_readInt : Gives readInt (fitsInt64 · = true) := by
  refine Gives.and_of_value (Q := Anything) (fun input hin => ?_) fitsInt64_of_readInt
  refine (gives_readByte hin).bind fun ⟨b, rest⟩ ⟨_, hrest⟩ => ?_
  dsimp only
  split
  · split
    · exact yields_signed hrest fun n => n
    · exact yields_signed hrest fun n => -1 - n
    · exact yields_error (mismatch_ne_unknown b rest)
  · exact yields_error (mismatch_ne_unknown b rest)

theorem gives_readText : Gives readText TextFits := by
  refine Gives.and_of_value (Q := Anything) (fun input hin => ?_) textFits_of_readText
  refine (gives_readByte hin).bind fun ⟨b, rest⟩ ⟨_, hrest⟩ => ?_
  dsimp only
  split
  · refine (gives_readArgument _ hrest).bind fun ⟨n, rest⟩ ⟨_, hrest⟩ => ?_
    refine (gives_readBytes n hrest).bind fun ⟨bytes, rest⟩ ⟨_, hrest⟩ => ?_
    dsimp only
    split
    · exact yields_ok ⟨trivial, hrest⟩
    · exact yields_error nofun
  · exact yields_error (mismatch_ne_unknown b rest)

theorem gives_readArrayHead : Gives readArrayHead fun length => ∀ n ∈ length, n ≤ maxUInt64 := by
  intro input hin
  refine (gives_readByte hin).bind fun ⟨b, rest⟩ ⟨_, hrest⟩ => ?_
  dsimp only
  split
  · split
    · exact yields_ok ⟨nofun, hrest⟩
    · refine (gives_readArgument _ hrest).bind fun ⟨n, rest⟩ ⟨hn, hrest⟩ => ?_
      refine yields_ok ⟨fun m hm => ?_, hrest⟩
      cases hm
      exact hn
  · exact yields_error (mismatch_ne_unknown b rest)

/-! ## Skipping -/

theorem yields_skipChunks (kind : Major) (fuel : Nat) {input : Bytes} (hin : InMemory input) :
    Yields InMemory (skipChunks kind fuel input) := by
  induction fuel generalizing input with
  | zero => exact yields_error nofun
  | succ fuel ih =>
    refine (gives_readByte hin).bind fun ⟨b, rest⟩ ⟨_, hrest⟩ => ?_
    dsimp only
    split
    · exact yields_ok hrest
    split
    · exact (gives_readText hin).bind fun _ h => ih h.2
    split
    · refine (gives_readArgument _ hrest).bind fun ⟨n, rest⟩ ⟨_, hrest⟩ => ?_
      exact (gives_readBytes n hrest).bind fun _ h => ih h.2
    · exact yields_error (mismatch_ne_unknown b rest)

/-- A head that ends with its argument. -/
theorem yields_argumentHead {low : Nat} {rest : Bytes} (hrest : InMemory rest)
    (head : Nat → Head) :
    Yields (fun r => Anything r.1 ∧ InMemory r.2)
      (do
        let (n, rest) ← readArgument low rest
        return (head n, rest)) :=
  (gives_readArgument low hrest).bind fun _ h => yields_ok ⟨trivial, h.2⟩

theorem gives_skipHead : Gives skipHead Anything := by
  intro input hin
  have chunks {kind : Major} {rest : Bytes} (hrest : InMemory rest) :
      Yields (fun r => Anything r.1 ∧ InMemory r.2)
        (do return (Head.complete, ← skipChunks kind input.length rest)) :=
    (yields_skipChunks kind _ hrest).bind fun _ h => yields_ok ⟨trivial, h⟩
  refine (gives_readByte hin).bind fun ⟨b, rest⟩ ⟨_, hrest⟩ => ?_
  dsimp only
  split
  · exact yields_ok ⟨trivial, hrest⟩
  split
  · exact yields_argumentHead hrest fun _ => .complete
  · exact yields_argumentHead hrest fun _ => .complete
  · exact yields_argumentHead hrest fun _ => .complete
  · split
    · exact chunks hrest
    · refine (gives_readArgument _ hrest).bind fun ⟨n, rest⟩ ⟨_, hrest⟩ => ?_
      exact (gives_readBytes n hrest).bind fun _ h => yields_ok ⟨trivial, h.2⟩
  · split
    · exact chunks hrest
    · exact (gives_readText hin).bind fun _ h => yields_ok ⟨trivial, h.2⟩
  · split
    · exact yields_ok ⟨trivial, hrest⟩
    · exact yields_argumentHead hrest fun n => .container (some n)
  · split
    · exact yields_ok ⟨trivial, hrest⟩
    · exact yields_argumentHead hrest fun n => .container (some (2 * n))
  · exact yields_argumentHead hrest fun _ => .tag

theorem yields_skipPending (fuel : Nat) (p : Pending) {input : Bytes} (hin : InMemory input) :
    Yields InMemory (skipPending fuel p input) := by
  fun_induction skipPending fuel p input with
  | case1 => exact yields_ok hin
  | case2 => exact yields_error nofun
  | case3 input fuel p hp ih =>
    exact (gives_skipHead hin).bind fun _ h => ih _ _ h.2

theorem yields_skip {input : Bytes} (hin : InMemory input) : Yields InMemory (skip input) :=
  yields_skipPending _ _ hin

theorem yields_skipTimes (n : Nat) {input : Bytes} (hin : InMemory input) :
    Yields InMemory (skipTimes n input) := by
  induction n generalizing input with
  | zero => exact yields_ok hin
  | succ n ih => exact (yields_skip hin).bind fun _ h => ih h

theorem yields_skipUntilBreak (fuel : Nat) {input : Bytes} (hin : InMemory input) :
    Yields InMemory (skipUntilBreak fuel input) := by
  induction fuel generalizing input with
  | zero => exact yields_error nofun
  | succ fuel ih =>
    refine yields_peek.bind fun b _ => ?_
    split
    · exact yields_ok (hin.drop 1)
    · exact (yields_skip hin).bind fun _ h => ih h

/-! ## Lists -/

section Lists

variable {α : Type} {read : Reader α} {P : α → Prop}

theorem gives_readTimes (h : Gives read P) (n : Nat) :
    Gives (readTimes read n) fun xs => xs.length = n ∧ ∀ x ∈ xs, P x := by
  induction n with
  | zero => exact fun _ hin => yields_ok ⟨⟨rfl, nofun⟩, hin⟩
  | succ n ih =>
    intro input hin
    refine (h hin).bind fun ⟨x, rest⟩ ⟨hx, hrest⟩ => ?_
    refine (ih hrest).bind fun ⟨xs, rest⟩ ⟨⟨hlength, hxs⟩, hrest⟩ => ?_
    exact yields_ok ⟨⟨congrArg (· + 1) hlength, List.forall_mem_cons.mpr ⟨hx, hxs⟩⟩, hrest⟩

theorem gives_readUntilBreak (h : Gives read P) (fuel : Nat) :
    Gives (readUntilBreak read fuel) fun xs => xs.length ≤ fuel ∧ ∀ x ∈ xs, P x := by
  induction fuel with
  | zero => exact fun _ _ => yields_error nofun
  | succ fuel ih =>
    intro input hin
    refine (gives_readByte hin).bind fun ⟨b, rest⟩ ⟨_, hrest⟩ => ?_
    dsimp only
    split
    · exact yields_ok ⟨⟨Nat.zero_le _, nofun⟩, hrest⟩
    refine (h hin).bind fun ⟨x, rest⟩ ⟨hx, hrest⟩ => ?_
    refine (ih hrest).bind fun ⟨xs, rest⟩ ⟨⟨hlength, hxs⟩, hrest⟩ => ?_
    exact yields_ok ⟨⟨Nat.succ_le_succ hlength, List.forall_mem_cons.mpr ⟨hx, hxs⟩⟩, hrest⟩

/-- A list has as many entries as its head says or, if that does not say it, no more than the input
has bytes. -/
theorem gives_readList (h : Gives read P) :
    Gives (readList read) fun xs => xs.length ≤ maxUInt64 ∧ ∀ x ∈ xs, P x := by
  intro input hin
  refine (gives_readArrayHead hin).bind fun ⟨length, rest⟩ ⟨hlength, hrest⟩ => ?_
  cases length with
  | some n =>
    refine (gives_readTimes h n hrest).mono fun r hr => ⟨⟨?_, hr.1.2⟩, hr.2⟩
    rw [hr.1.1]
    exact hlength n rfl
  | none =>
    exact (gives_readUntilBreak h input.length hrest).mono fun r hr =>
      ⟨⟨Nat.le_trans hr.1.1 hin, hr.1.2⟩, hr.2⟩

end Lists

/-! ## Records -/

section Records

variable {α : Type} {read : Reader α} {P : α → Prop} {input : Bytes}

theorem yields_hasNext (left : Left) : Yields Anything (hasNext left input) := by
  unfold hasNext
  split
  · exact yields_ok trivial
  · exact yields_peek.bind fun _ _ => yields_ok trivial

/-- A field that every record has. -/
theorem Gives.field (h : Gives read P) (left : Left) (hin : InMemory input) :
    Yields (fun r => P r.1 ∧ InMemory r.2.2) (readField read left input) := by
  refine (yields_hasNext left).bind fun more _ => ?_
  split
  · exact (h hin).bind fun ⟨x, rest⟩ hx => yields_ok hx
  · exact yields_error nofun

/-- A field that may be absent. -/
theorem Gives.optional (h : Gives read P) (left : Left) (hin : InMemory input) :
    Yields (fun r => (∀ x ∈ r.1, P x) ∧ InMemory r.2.2) (readOptional read left input) := by
  refine (yields_hasNext left).bind fun more _ => ?_
  split
  · refine yields_peek.bind fun b _ => ?_
    split
    · exact yields_ok ⟨nofun, hin.drop 1⟩
    have hread := h hin
    split
    · rename_i x rest hx
      obtain ⟨hx, hrest⟩ := hread.result _ hx
      exact yields_ok ⟨fun y hy => by cases hy; exact hx, hrest⟩
    · rename_i rest hunknown
      exact (yields_skip (hread.unknown rest hunknown)).bind fun _ hrest =>
        yields_ok ⟨nofun, hrest⟩
    · rename_i fault hfault _
      exact yields_error fun rest heq => hfault rest heq
  · exact yields_ok ⟨nofun, hin⟩

theorem yields_readRecordEnd (left : Left) (hin : InMemory input) :
    Yields InMemory (readRecordEnd left input) := by
  unfold readRecordEnd
  split
  · exact yields_skipTimes _ hin
  · exact yields_skipUntilBreak _ hin

theorem gives_readAlternativeHead : Gives readAlternativeHead Anything := by
  intro input hin
  refine (gives_readArrayHead hin).bind fun ⟨length, rest⟩ ⟨_, hrest⟩ => ?_
  dsimp only
  split
  · exact (gives_readInt hrest).mono fun _ h => ⟨trivial, h.2⟩
  · exact yields_error nofun

end Records

end Depot.Cbor

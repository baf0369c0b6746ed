/-!
# Words

The ranges of whole numbers that fit into 32, 64 or 128 bits. `unsigned64_signed64` says that a word
is read back from its signed form, and `signed64_inj` that no two words share one.
-/

namespace PipelineRunner.Word

def half32 : Nat := 0x80000000

def half64 : Nat := 0x8000000000000000

def size64 : Nat := 0x10000000000000000

def half128 : Nat := 0x80000000000000000000000000000000

def size128 : Nat := 0x100000000000000000000000000000000

def IsSigned32 (n : Int) : Prop := -half32 ≤ n ∧ n < half32

instance (n : Int) : Decidable (IsSigned32 n) := inferInstanceAs (Decidable (_ ∧ _))

/-- The signed word of 64 bits with the same lowest bits. -/
@[irreducible] def signed64 (n : Int) : Int := Int.bmod n size64

/-- The unsigned word of 64 bits with the same lowest bits. -/
@[irreducible] def unsigned64 (n : Int) : Nat := (Int.emod n size64).toNat

theorem unsigned64_signed64 {n : Nat} (h : n < size64) : unsigned64 (signed64 n) = n := by
  unfold size64 at h
  unfold unsigned64 signed64
  show (Int.bmod n size64 % size64).toNat = n
  rw [Int.bmod_emod]
  unfold size64
  omega

theorem signed64_of_lt_half {n : Nat} (h : n < half64) : signed64 n = n := by
  unfold half64 at h
  unfold signed64 size64
  rw [Int.bmod_def]
  omega

theorem signed64_inj {m n : Nat} (hm : m < size64) (hn : n < size64) :
    signed64 m = signed64 n ↔ m = n := by
  constructor
  · intro h
    rw [← unsigned64_signed64 hm, h, unsigned64_signed64 hn]
  · rintro rfl
    rfl

end PipelineRunner.Word

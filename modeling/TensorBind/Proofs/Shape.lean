import TensorBind.Proofs.Outcome
import TensorBind.Shape

/-!
# Sizes of shapes

The exact number of elements of a shape is a product of natural numbers
(`Shape.volume`). Sizes are counted dimension by dimension in words of 64
bits, and here is what the counting comes to.

The sizes that saturate are clipped after every factor. That is the same as
to clip the exact size once (`Shape.elementCount_eq_min`,
`Shape.byteSize_eq_min`), since a factor of zero brings a clipped product to
zero too, and any other leaves it clipped.

The size that is checked is the exact one or none
(`Shape.checkedByteSize_eq_some_iff`). But there a zero does not make up for
what comes before it: the dimensions in front of the first zero have to fit
by themselves (`Shape.FitsInOrder`), so the answer may depend on the order of
the dimensions (`Shape.checkedByteSize_perm_iff`).
-/

namespace TensorBind

theorem le_largestSize_iff {n : Nat} : n ≤ largestSize ↔ n < 2 ^ 64 :=
  Nat.lt_succ_iff.symm

/-- **A factor that was clipped** leaves the clipped product as it is. -/
theorem saturatingMul_min (a b : Nat) :
    saturatingMul (min largestSize a) b = saturatingMul a b := by
  unfold saturatingMul
  rcases Nat.eq_zero_or_pos b with rfl | hb
  · rw [Nat.mul_zero, Nat.mul_zero]
  · rcases Nat.le_total a largestSize with ha | ha
    · rw [Nat.min_eq_right ha]
    · have hlarge : largestSize ≤ largestSize * b :=
        Nat.le_mul_of_pos_right _ hb
      rw [Nat.min_eq_left ha, Nat.min_eq_left hlarge,
        Nat.min_eq_left (hlarge.trans (Nat.mul_le_mul_right b ha))]

theorem checkedMul?_eq_some {a b n : Nat} :
    checkedMul? a b = some n ↔ a * b ≤ largestSize ∧ a * b = n := by
  unfold checkedMul?
  split
  · rename_i hfits
    rw [Option.some.injEq]
    exact (and_iff_right hfits).symm
  · rename_i hlarge
    simp [hlarge]

namespace Shape

/-! ## Exact sizes -/

/-- **The exact product of dimensions**, without a bound. A negative one
counts as zero. -/
def volume (dims : List Int64) : Nat :=
  (dims.map fun d => d.toInt.toNat).prod

@[simp]
theorem volume_nil : volume [] = 1 := rfl

@[simp]
theorem volume_cons (d : Int64) (dims : List Int64) :
    volume (d :: dims) = d.toInt.toNat * volume dims := by
  rw [volume, List.map_cons, List.prod_cons, volume]

theorem volume_perm {dims order : List Int64} (h : order.Perm dims) :
    volume order = volume dims :=
  (h.map _).prod_eq

theorem volume_eq_zero {dims : List Int64} (h : 0 ∈ dims) :
    volume dims = 0 :=
  List.prod_eq_zero (List.mem_map.mpr ⟨0, h, rfl⟩)

theorem toNat_pos {d : Int64} (hd : 0 ≤ d) (hne : d ≠ 0) :
    0 < d.toInt.toNat := by
  rw [Int64.le_iff_toInt_le] at hd
  rw [ne_eq, ← Int64.toInt_inj] at hne
  have hzero : (0 : Int64).toInt = 0 := rfl
  omega

/-- Dimensions of which none is zero or negative have a volume. -/
theorem volume_pos {dims : List Int64} (hnonneg : ∀ d ∈ dims, 0 ≤ d)
    (hne : ∀ d ∈ dims, d ≠ 0) : 0 < volume dims := by
  induction dims with
  | nil => exact Nat.one_pos
  | cons d dims ih =>
    rw [List.forall_mem_cons] at hnonneg hne
    rw [volume_cons]
    exact Nat.mul_pos (toNat_pos hnonneg.1 hne.1) (ih hnonneg.2 hne.2)

/-! ## Sizes that saturate -/

/-- Clipping after every dimension is clipping once. -/
theorem foldl_saturatingMul (dims : List Int64) (start : Nat) :
    dims.foldl (fun count d => saturatingMul count d.toNatClampNeg)
        (min largestSize start)
      = min largestSize (start * volume dims) := by
  induction dims generalizing start with
  | nil => rw [List.foldl_nil, volume_nil, Nat.mul_one]
  | cons d dims ih =>
    rw [List.foldl_cons, saturatingMul_min, volume_cons, ← Nat.mul_assoc]
    exact ih _

/-- **The number of elements** is the exact one, clipped once. -/
theorem elementCount_eq_min (s : Shape) :
    s.elementCount = min largestSize (volume s.dims) := by
  have hfold := foldl_saturatingMul s.dims 1
  rwa [Nat.one_mul] at hfold

/-- **The number of bytes** is the exact one, clipped once. -/
theorem byteSize_eq_min (s : Shape) :
    s.byteSize
      = min largestSize (volume s.dims * s.elementType.byteWidth) := by
  rw [byteSize, elementCount_eq_min, saturatingMul_min, saturatingMul]

/-! ## Sizes that are checked -/

/-- **Dimensions that fit one after the other**: those in front of the first
zero have a product that can be counted. Behind a zero everything fits. -/
def FitsInOrder (dims : List Int64) : Prop :=
  volume (dims.takeWhile (· ≠ 0)) < 2 ^ 64

instance (dims : List Int64) : Decidable (FitsInOrder dims) :=
  inferInstanceAs (Decidable (_ < _))

theorem checkedStep?_eq_some {count next : Nat} {d : Int64} :
    checkedStep? count d = some next
      ↔ 0 ≤ d ∧ count * d.toInt.toNat ≤ largestSize
        ∧ count * d.toInt.toNat = next := by
  unfold checkedStep?
  split
  · rename_i hd
    simp [Int64.not_le.mpr hd]
  · rename_i hd
    rw [checkedMul?_eq_some]
    exact (and_iff_right (Int64.not_lt.mp hd)).symm

theorem volume_takeWhile_pos {dims : List Int64}
    (h : ∀ d ∈ dims, 0 ≤ d) : 0 < volume (dims.takeWhile (· ≠ 0)) :=
  volume_pos (fun d hd => h d ((List.takeWhile_sublist _).subset hd))
    fun d hd => by simpa using List.mem_takeWhile_imp hd

/-- What is in front of the first zero fits if the first dimension does and
then the others. -/
theorem mul_volume_takeWhile_cons {d : Int64} {dims : List Int64}
    {start : Nat} (hstart : start ≤ largestSize)
    (hdims : ∀ e ∈ dims, 0 ≤ e) :
    start * volume ((d :: dims).takeWhile (· ≠ 0)) ≤ largestSize
      ↔ start * d.toInt.toNat ≤ largestSize
        ∧ start * d.toInt.toNat * volume (dims.takeWhile (· ≠ 0))
          ≤ largestSize := by
  by_cases hzero : d = 0
  · subst hzero
    simp [hstart]
  · rw [List.takeWhile_cons, if_pos (decide_eq_true hzero), volume_cons,
      ← Nat.mul_assoc]
    refine ⟨fun h => ⟨?_, h⟩, And.right⟩
    exact (Nat.le_mul_of_pos_right _ (volume_takeWhile_pos hdims)).trans h

/-- **Dimensions are counted** if none is negative and those in front of the
first zero fit. -/
theorem foldlM_checkedStep?_eq_some {dims : List Int64} {start count : Nat}
    (hstart : start ≤ largestSize) :
    dims.foldlM checkedStep? start = some count
      ↔ (∀ d ∈ dims, 0 ≤ d)
        ∧ start * volume (dims.takeWhile (· ≠ 0)) ≤ largestSize
        ∧ start * volume dims = count := by
  induction dims generalizing start with
  | nil =>
    rw [List.foldlM_nil, List.takeWhile_nil, volume_nil, Nat.mul_one]
    simp [hstart]
  | cons d dims ih =>
    rw [List.foldlM_cons, Option.bind_eq_bind, Option.bind_eq_some_iff,
      List.forall_mem_cons, volume_cons, ← Nat.mul_assoc]
    constructor
    · rintro ⟨_, hstep, hrest⟩
      obtain ⟨hd, hfits, rfl⟩ := checkedStep?_eq_some.mp hstep
      obtain ⟨hdims, hleading, hcount⟩ := (ih hfits).mp hrest
      exact ⟨⟨hd, hdims⟩, (mul_volume_takeWhile_cons hstart hdims).mpr
        ⟨hfits, hleading⟩, hcount⟩
    · rintro ⟨⟨hd, hdims⟩, hleading, hcount⟩
      obtain ⟨hfits, hleading⟩ :=
        (mul_volume_takeWhile_cons hstart hdims).mp hleading
      exact ⟨_, checkedStep?_eq_some.mpr ⟨hd, hfits, rfl⟩,
        (ih hfits).mpr ⟨hdims, hleading, hcount⟩⟩

/-- **A size that can be represented**: no dimension is negative, and the
exact number of bytes is a word. -/
structure Representable (s : Shape) (size : Nat) : Prop where
  /-- No dimension is negative. -/
  nonneg : ∀ d ∈ s.dims, 0 ≤ d
  /-- The size is the product of the dimensions and the width. -/
  eq_mul : size = volume s.dims * s.elementType.byteWidth
  /-- It is a word. -/
  lt : size < 2 ^ 64

instance (s : Shape) (size : Nat) : Decidable (s.Representable size) :=
  decidable_of_decidable_of_iff
    (p := s.dims.all (0 ≤ ·)
      ∧ size = volume s.dims * s.elementType.byteWidth ∧ size < 2 ^ 64)
    ⟨fun h => ⟨by simpa using h.1, h.2.1, h.2.2⟩,
      fun h => ⟨by simpa using h.nonneg, h.eq_mul, h.lt⟩⟩

/-- **When a size is counted**: it can be represented, and the dimensions
fit one after the other. -/
theorem checkedByteSize_eq_some_iff {s : Shape} {size : Nat} :
    s.checkedByteSize = some size
      ↔ s.Representable size ∧ FitsInOrder s.dims := by
  have hone : 1 ≤ largestSize := by decide
  rw [checkedByteSize, Option.bind_eq_bind, Option.bind_eq_some_iff]
  simp only [foldlM_checkedStep?_eq_some hone, checkedMul?_eq_some,
    Nat.one_mul, le_largestSize_iff]
  constructor
  · rintro ⟨_, ⟨hnonneg, hfits, rfl⟩, hlt, rfl⟩
    exact ⟨⟨hnonneg, rfl, hlt⟩, hfits⟩
  · rintro ⟨⟨hnonneg, rfl, hlt⟩, hfits⟩
    exact ⟨_, ⟨hnonneg, hfits, rfl⟩, hlt, rfl⟩

theorem nonneg_of_checkedByteSize {s : Shape}
    (h : s.checkedByteSize.isSome) : ∀ d ∈ s.dims, ¬d < 0 := by
  obtain ⟨size, hsize⟩ := Option.isSome_iff_exists.mp h
  obtain ⟨hsize, -⟩ := checkedByteSize_eq_some_iff.mp hsize
  exact fun d hd => Int64.not_lt.mpr (hsize.nonneg d hd)

/-- The exact number of elements is no larger than that of their bytes. -/
theorem Representable.volume_le {s : Shape} {size : Nat}
    (h : s.Representable size) : volume s.dims ≤ size := by
  rw [h.eq_mul]
  exact Nat.le_mul_of_pos_right _ s.elementType.byteWidth_pos

/-- **A size that can be represented is not clipped**, and neither is the
number of elements. -/
theorem Representable.elementCount_eq {s : Shape} {size : Nat}
    (h : s.Representable size) :
    s.elementCount = volume s.dims ∧ s.byteSize = size := by
  have hlt := h.lt
  have hle := h.volume_le
  rw [elementCount_eq_min, byteSize_eq_min, ← h.eq_mul]
  refine ⟨Nat.min_eq_right ?_, Nat.min_eq_right ?_⟩
  · exact le_largestSize_iff.mpr (Nat.lt_of_le_of_lt hle hlt)
  · exact le_largestSize_iff.mpr hlt

/-- **A size that can be counted** is the number of elements times their
width. -/
theorem elementCount_mul_of_checkedByteSize {s : Shape} {size : Nat}
    (h : s.checkedByteSize = some size) :
    s.elementCount * s.elementType.byteWidth = size
      ∧ size ≤ largestSize := by
  obtain ⟨hsize, -⟩ := checkedByteSize_eq_some_iff.mp h
  rw [hsize.elementCount_eq.1]
  exact ⟨hsize.eq_mul.symm, le_largestSize_iff.mpr hsize.lt⟩

/-! ## The order of the dimensions -/

/-- **Shapes for which the order does not matter**: a dimension is negative,
none is zero, or those that are not zero fit. -/
def OrderFree (dims : List Int64) : Prop :=
  (∃ d ∈ dims, d < 0) ∨ 0 ∉ dims ∨ volume (dims.filter (· ≠ 0)) < 2 ^ 64

instance (dims : List Int64) : Decidable (OrderFree dims) :=
  decidable_of_decidable_of_iff
    (p := dims.any (· < 0) ∨ 0 ∉ dims
      ∨ volume (dims.filter (· ≠ 0)) < 2 ^ 64)
    (or_congr (by simp) Iff.rfl)

theorem OrderFree.perm {dims order : List Int64} (h : OrderFree dims)
    (hperm : order.Perm dims) : OrderFree order := by
  unfold OrderFree at h ⊢
  rw [volume_perm (hperm.filter _)]
  simpa only [hperm.mem_iff] using h

/-- Where the order does not matter, dimensions fit one after the other if
all of them do. -/
theorem Representable.fitsInOrder {s : Shape} {size : Nat}
    (h : s.Representable size) (hfree : OrderFree s.dims) :
    FitsInOrder s.dims := by
  rcases hfree with ⟨d, hd, hneg⟩ | hzero | hfilter
  · exact absurd (h.nonneg d hd) (Int64.not_le.mpr hneg)
  · have hall : s.dims.takeWhile (· ≠ 0) = s.dims := by
      rw [List.takeWhile_eq_self_iff]
      intro d hd
      exact decide_eq_true fun heq => hzero (heq ▸ hd)
    rw [FitsInOrder, hall]
    exact Nat.lt_of_le_of_lt h.volume_le h.lt
  · -- what is in front of the first zero is some of what is not zero
    have hkept : (s.dims.takeWhile (· ≠ 0)).filter (· ≠ 0)
        = s.dims.takeWhile (· ≠ 0) :=
      List.filter_eq_self.mpr fun d hd => by
        simpa using List.mem_takeWhile_imp hd
    have hsublist := (List.takeWhile_sublist (l := s.dims) (· ≠ 0)).filter
      (· ≠ 0)
    rw [hkept] at hsublist
    have hpos : 0 < volume (s.dims.filter (· ≠ 0)) := volume_pos
      (fun d hd => h.nonneg d (List.mem_of_mem_filter hd))
      fun d hd => by simpa using List.of_mem_filter hd
    have hdvd := (hsublist.map fun d => d.toInt.toNat).prod_dvd_prod
    exact Nat.lt_of_le_of_lt (Nat.le_of_dvd hpos hdvd) hfilter

/-- **Where the order does not matter, the sizes that can be represented are
counted**, and no others. -/
theorem OrderFree.checkedByteSize_eq_some_iff {s : Shape}
    (h : OrderFree s.dims) {size : Nat} :
    s.checkedByteSize = some size ↔ s.Representable size := by
  rw [Shape.checkedByteSize_eq_some_iff]
  exact ⟨And.left, fun hsize => ⟨hsize, hsize.fitsInOrder h⟩⟩

theorem Representable.perm {s : Shape} {order : List Int64} {size : Nat}
    (h : s.Representable size) (hperm : order.Perm s.dims) :
    Representable ⟨s.elementType, order⟩ size where
  nonneg := fun d hd => h.nonneg d (hperm.mem_iff.mp hd)
  eq_mul := by rw [volume_perm hperm, h.eq_mul]
  lt := h.lt

/-- Dimensions with a zero in front are always counted. -/
theorem checkedByteSize_of_zero_first {t : ElementType} {dims : List Int64}
    (h : ∀ d ∈ dims, 0 ≤ d) :
    checkedByteSize ⟨t, 0 :: dims⟩ = some 0 := by
  refine Shape.checkedByteSize_eq_some_iff.mpr ⟨⟨?_, ?_, by decide⟩, ?_⟩
  · exact List.forall_mem_cons.mpr ⟨by decide, h⟩
  · rw [volume_eq_zero List.mem_cons_self, Nat.zero_mul]
  · show volume [] < 2 ^ 64
    decide

/-- **Dimensions with all zeros at the end** fit only if the others do. -/
theorem fitsInOrder_of_zeros_last {dims : List Int64} :
    FitsInOrder (dims.filter (· ≠ 0) ++ dims.filter fun d => !(d ≠ 0))
      ↔ volume (dims.filter (· ≠ 0)) < 2 ^ 64 := by
  have hzeros : (dims.filter fun d => !(d ≠ 0)).takeWhile (· ≠ 0) = [] := by
    rw [List.takeWhile_eq_nil_iff]
    intro hlt
    have hmem := List.of_mem_filter (List.getElem_mem hlt)
    simpa using hmem
  have hothers : ∀ d ∈ dims.filter (· ≠ 0), decide (d ≠ 0) :=
    fun d hd => by simpa using List.of_mem_filter hd
  rw [FitsInOrder, List.takeWhile_append_of_pos hothers, hzeros,
    List.append_nil]

/-- **When the order of the dimensions does not matter** for whether and how
a size is counted. -/
theorem checkedByteSize_perm_iff {s : Shape} :
    (∀ order : List Int64, order.Perm s.dims →
      checkedByteSize ⟨s.elementType, order⟩ = s.checkedByteSize)
    ↔ OrderFree s.dims := by
  constructor
  · intro horder
    by_contra hfree
    simp only [OrderFree, not_or, not_exists, not_and, not_not] at hfree
    obtain ⟨hnonneg, hzero, hlarge⟩ := hfree
    have hnonneg : ∀ d ∈ s.dims, 0 ≤ d :=
      fun d hd => Int64.not_lt.mp (hnonneg d hd)
    -- with a zero in front there is a size, with the zeros at the end none
    have hfirst := horder _ (List.perm_cons_erase hzero).symm
    rw [checkedByteSize_of_zero_first fun d hd =>
      hnonneg d (List.mem_of_mem_erase hd), ← horder _
      (List.filter_append_perm (· ≠ 0) s.dims)] at hfirst
    have hfits := (Shape.checkedByteSize_eq_some_iff.mp hfirst.symm).2
    exact hlarge (fitsInOrder_of_zeros_last.mp hfits)
  · intro hfree order hperm
    refine Option.ext fun size => ?_
    rw [(hfree.perm hperm).checkedByteSize_eq_some_iff,
      hfree.checkedByteSize_eq_some_iff]
    exact ⟨fun h => h.perm hperm.symm, fun h => h.perm hperm⟩

/-! ## The sizes together -/

/-- **Sizes that saturate are the exact sizes, clipped once**, whatever the
order of the dimensions. A size that is checked is not clipped, and neither
is the number of elements then, so what may be materialized has no more
elements than bytes. -/
theorem sizes_eq_clipped (t : ElementType) (dims : List Int64) :
    (∀ order : List Int64, order.Perm dims →
      elementCount ⟨t, order⟩ = min (2 ^ 64 - 1) (volume dims)
        ∧ byteSize ⟨t, order⟩
          = min (2 ^ 64 - 1) (volume dims * t.byteWidth))
    ∧ (∀ size, checkedByteSize ⟨t, dims⟩ = some size →
      byteSize ⟨t, dims⟩ = size
        ∧ elementCount ⟨t, dims⟩ * t.byteWidth = size
        ∧ elementCount ⟨t, dims⟩ = volume dims)
    ∧ ((literalByteSize ⟨t, dims⟩).isSome →
      elementCount ⟨t, dims⟩ ≤ 2 ^ 31) := by
  have hchecked : ∀ {size}, checkedByteSize ⟨t, dims⟩ = some size →
      Representable ⟨t, dims⟩ size :=
    fun h => (checkedByteSize_eq_some_iff.mp h).1
  refine ⟨fun order hperm => ?_, fun size h => ?_, fun h => ?_⟩
  · rw [elementCount_eq_min, byteSize_eq_min, volume_perm hperm]
    exact ⟨rfl, rfl⟩
  · obtain ⟨hcount, hbytes⟩ := (hchecked h).elementCount_eq
    exact ⟨hbytes, (elementCount_mul_of_checkedByteSize h).1, hcount⟩
  · obtain ⟨size, hsize⟩ := Option.isSome_iff_exists.mp h
    obtain ⟨hsize, hle⟩ := Option.filter_eq_some_iff.mp hsize
    rw [(hchecked hsize).elementCount_eq.1]
    exact (hchecked hsize).volume_le.trans (of_decide_eq_true hle)

/-- A zero brings a clipped product to zero, the width of an element carries
a size past the limit, and just below it nothing is clipped. -/
theorem nearLimit_sizes_eq_clipped :
    elementCount ⟨.f64, [2 ^ 32, 2 ^ 32, 0]⟩ = 0
      ∧ byteSize ⟨.f64, [2 ^ 31, 2 ^ 30]⟩ = 2 ^ 64 - 1
      ∧ byteSize ⟨.f64, [2 ^ 30, 2 ^ 30]⟩ = 2 ^ 63
      ∧ elementCount ⟨.f64, [2 ^ 30, 2 ^ 30]⟩ = 2 ^ 60
      ∧ elementCount ⟨.pred, [2 ^ 31]⟩ ≤ 2 ^ 31 := by
  have hchecked : checkedByteSize ⟨.f64, [2 ^ 30, 2 ^ 30]⟩ = some (2 ^ 63) := by
    decide
  obtain ⟨hbytes, -, hcount⟩ := (sizes_eq_clipped .f64 _).2.1 _ hchecked
  refine ⟨((sizes_eq_clipped .f64 _).1 _ (List.Perm.refl _)).1.trans rfl,
    ((sizes_eq_clipped .f64 _).1 _ (List.Perm.refl _)).2.trans rfl, hbytes,
    hcount.trans rfl, (sizes_eq_clipped .pred _).2.2 (by decide)⟩

end Shape

end TensorBind

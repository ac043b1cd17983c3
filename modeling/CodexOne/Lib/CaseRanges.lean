import Mathlib.Data.List.Basic

/-!
Lower case of runes, after the `CaseRanges` of Go's `unicode`.
-/

namespace CodexOne

/-- A range of runes with one rule for their lower case. -/
inductive CaseRange where
  /-- All runes are moved by the same distance, the first one to `target`. -/
  | shifted (lo hi target : ℕ)
  /-- Upper and lower case take turns, upper case first. -/
  | alternating (lo hi : ℕ)

namespace CaseRange

def lo : CaseRange → ℕ
  | shifted lo _ _ => lo
  | alternating lo _ => lo

def hi : CaseRange → ℕ
  | shifted _ hi _ => hi
  | alternating _ hi => hi

def lower : CaseRange → ℕ → ℕ
  | shifted lo _ target, n => target + (n - lo)
  | alternating lo _, n => lo + (n - lo) / 2 * 2 + 1

/-- The ranges with runes that are not their own lower case. -/
def caseRanges : List CaseRange :=
  [.shifted 0x41 0x5a 0x61, .shifted 0xc0 0xd6 0xe0, .shifted 0xd8 0xde 0xf8,
    .alternating 0x100 0x12f, .shifted 0x130 0x130 0x69, .alternating 0x132 0x137,
    .alternating 0x139 0x148, .alternating 0x14a 0x177, .shifted 0x178 0x178 0xff,
    .alternating 0x179 0x17e, .shifted 0x181 0x181 0x253, .alternating 0x182 0x185,
    .shifted 0x186 0x186 0x254, .alternating 0x187 0x188, .shifted 0x189 0x18a 0x256,
    .alternating 0x18b 0x18c, .shifted 0x18e 0x18e 0x1dd, .shifted 0x18f 0x18f 0x259,
    .shifted 0x190 0x190 0x25b, .alternating 0x191 0x192, .shifted 0x193 0x193 0x260,
    .shifted 0x194 0x194 0x263, .shifted 0x196 0x196 0x269, .shifted 0x197 0x197 0x268,
    .alternating 0x198 0x199, .shifted 0x19c 0x19c 0x26f, .shifted 0x19d 0x19d 0x272,
    .shifted 0x19f 0x19f 0x275, .alternating 0x1a0 0x1a5, .shifted 0x1a6 0x1a6 0x280,
    .alternating 0x1a7 0x1a8, .shifted 0x1a9 0x1a9 0x283, .alternating 0x1ac 0x1ad,
    .shifted 0x1ae 0x1ae 0x288, .alternating 0x1af 0x1b0, .shifted 0x1b1 0x1b2 0x28a,
    .alternating 0x1b3 0x1b6, .shifted 0x1b7 0x1b7 0x292, .alternating 0x1b8 0x1b9,
    .alternating 0x1bc 0x1bd, .shifted 0x1c4 0x1c4 0x1c6, .alternating 0x1c5 0x1c6,
    .shifted 0x1c7 0x1c7 0x1c9, .alternating 0x1c8 0x1c9, .shifted 0x1ca 0x1ca 0x1cc,
    .alternating 0x1cb 0x1dc, .alternating 0x1de 0x1ef, .shifted 0x1f1 0x1f1 0x1f3,
    .alternating 0x1f2 0x1f5, .shifted 0x1f6 0x1f6 0x195, .shifted 0x1f7 0x1f7 0x1bf,
    .alternating 0x1f8 0x21f, .shifted 0x220 0x220 0x19e, .alternating 0x222 0x233,
    .shifted 0x23a 0x23a 0x2c65, .alternating 0x23b 0x23c, .shifted 0x23d 0x23d 0x19a,
    .shifted 0x23e 0x23e 0x2c66, .alternating 0x241 0x242, .shifted 0x243 0x243 0x180,
    .shifted 0x244 0x244 0x289, .shifted 0x245 0x245 0x28c, .alternating 0x246 0x24f,
    .alternating 0x370 0x373, .alternating 0x376 0x377, .shifted 0x37f 0x37f 0x3f3,
    .shifted 0x386 0x386 0x3ac, .shifted 0x388 0x38a 0x3ad, .shifted 0x38c 0x38c 0x3cc,
    .shifted 0x38e 0x38f 0x3cd, .shifted 0x391 0x3a1 0x3b1, .shifted 0x3a3 0x3ab 0x3c3,
    .shifted 0x3cf 0x3cf 0x3d7, .alternating 0x3d8 0x3ef, .shifted 0x3f4 0x3f4 0x3b8,
    .alternating 0x3f7 0x3f8, .shifted 0x3f9 0x3f9 0x3f2, .alternating 0x3fa 0x3fb,
    .shifted 0x3fd 0x3ff 0x37b, .shifted 0x400 0x40f 0x450, .shifted 0x410 0x42f 0x430,
    .alternating 0x460 0x481, .alternating 0x48a 0x4bf, .shifted 0x4c0 0x4c0 0x4cf,
    .alternating 0x4c1 0x4ce, .alternating 0x4d0 0x52f, .shifted 0x531 0x556 0x561,
    .shifted 0x10a0 0x10c5 0x2d00, .shifted 0x10c7 0x10c7 0x2d27, .shifted 0x10cd 0x10cd 0x2d2d,
    .shifted 0x13a0 0x13ef 0xab70, .shifted 0x13f0 0x13f5 0x13f8, .shifted 0x1c90 0x1cba 0x10d0,
    .shifted 0x1cbd 0x1cbf 0x10fd, .alternating 0x1e00 0x1e95, .shifted 0x1e9e 0x1e9e 0xdf,
    .alternating 0x1ea0 0x1eff, .shifted 0x1f08 0x1f0f 0x1f00, .shifted 0x1f18 0x1f1d 0x1f10,
    .shifted 0x1f28 0x1f2f 0x1f20, .shifted 0x1f38 0x1f3f 0x1f30, .shifted 0x1f48 0x1f4d 0x1f40,
    .shifted 0x1f59 0x1f59 0x1f51, .shifted 0x1f5b 0x1f5b 0x1f53, .shifted 0x1f5d 0x1f5d 0x1f55,
    .shifted 0x1f5f 0x1f5f 0x1f57, .shifted 0x1f68 0x1f6f 0x1f60, .shifted 0x1f88 0x1f8f 0x1f80,
    .shifted 0x1f98 0x1f9f 0x1f90, .shifted 0x1fa8 0x1faf 0x1fa0, .shifted 0x1fb8 0x1fb9 0x1fb0,
    .shifted 0x1fba 0x1fbb 0x1f70, .shifted 0x1fbc 0x1fbc 0x1fb3, .shifted 0x1fc8 0x1fcb 0x1f72,
    .shifted 0x1fcc 0x1fcc 0x1fc3, .shifted 0x1fd8 0x1fd9 0x1fd0, .shifted 0x1fda 0x1fdb 0x1f76,
    .shifted 0x1fe8 0x1fe9 0x1fe0, .shifted 0x1fea 0x1feb 0x1f7a, .shifted 0x1fec 0x1fec 0x1fe5,
    .shifted 0x1ff8 0x1ff9 0x1f78, .shifted 0x1ffa 0x1ffb 0x1f7c, .shifted 0x1ffc 0x1ffc 0x1ff3,
    .shifted 0x2126 0x2126 0x3c9, .shifted 0x212a 0x212a 0x6b, .shifted 0x212b 0x212b 0xe5,
    .shifted 0x2132 0x2132 0x214e, .shifted 0x2160 0x216f 0x2170, .alternating 0x2183 0x2184,
    .shifted 0x24b6 0x24cf 0x24d0, .shifted 0x2c00 0x2c2f 0x2c30, .alternating 0x2c60 0x2c61,
    .shifted 0x2c62 0x2c62 0x26b, .shifted 0x2c63 0x2c63 0x1d7d, .shifted 0x2c64 0x2c64 0x27d,
    .alternating 0x2c67 0x2c6c, .shifted 0x2c6d 0x2c6d 0x251, .shifted 0x2c6e 0x2c6e 0x271,
    .shifted 0x2c6f 0x2c6f 0x250, .shifted 0x2c70 0x2c70 0x252, .alternating 0x2c72 0x2c73,
    .alternating 0x2c75 0x2c76, .shifted 0x2c7e 0x2c7f 0x23f, .alternating 0x2c80 0x2ce3,
    .alternating 0x2ceb 0x2cee, .alternating 0x2cf2 0x2cf3, .alternating 0xa640 0xa66d,
    .alternating 0xa680 0xa69b, .alternating 0xa722 0xa72f, .alternating 0xa732 0xa76f,
    .alternating 0xa779 0xa77c, .shifted 0xa77d 0xa77d 0x1d79, .alternating 0xa77e 0xa787,
    .alternating 0xa78b 0xa78c, .shifted 0xa78d 0xa78d 0x265, .alternating 0xa790 0xa793,
    .alternating 0xa796 0xa7a9, .shifted 0xa7aa 0xa7aa 0x266, .shifted 0xa7ab 0xa7ab 0x25c,
    .shifted 0xa7ac 0xa7ac 0x261, .shifted 0xa7ad 0xa7ad 0x26c, .shifted 0xa7ae 0xa7ae 0x26a,
    .shifted 0xa7b0 0xa7b0 0x29e, .shifted 0xa7b1 0xa7b1 0x287, .shifted 0xa7b2 0xa7b2 0x29d,
    .shifted 0xa7b3 0xa7b3 0xab53, .alternating 0xa7b4 0xa7c3, .shifted 0xa7c4 0xa7c4 0xa794,
    .shifted 0xa7c5 0xa7c5 0x282, .shifted 0xa7c6 0xa7c6 0x1d8e, .alternating 0xa7c7 0xa7ca,
    .alternating 0xa7d0 0xa7d1, .alternating 0xa7d6 0xa7d9, .alternating 0xa7f5 0xa7f6,
    .shifted 0xff21 0xff3a 0xff41, .shifted 0x10400 0x10427 0x10428,
    .shifted 0x104b0 0x104d3 0x104d8, .shifted 0x10570 0x1057a 0x10597,
    .shifted 0x1057c 0x1058a 0x105a3, .shifted 0x1058c 0x10592 0x105b3,
    .shifted 0x10594 0x10595 0x105bb, .shifted 0x10c80 0x10cb2 0x10cc0,
    .shifted 0x118a0 0x118bf 0x118c0, .shifted 0x16e40 0x16e5f 0x16e60,
    .shifted 0x1e900 0x1e921 0x1e922]

end CaseRange

open CaseRange

/-- The lower case of a rune. -/
def lowerCode (n : ℕ) : ℕ :=
  match caseRanges.find? fun r => r.lo.ble n && n.ble r.hi with
  | some r => r.lower n
  | none => n

/-- The runes that `unicode.IsSpace` holds of. -/
def spaceCodes : List ℕ :=
  [0x09, 0x0a, 0x0b, 0x0c, 0x0d, 0x20, 0x85, 0xa0, 0x1680, 0x2000, 0x2001, 0x2002, 0x2003, 0x2004,
    0x2005, 0x2006, 0x2007, 0x2008, 0x2009, 0x200a, 0x2028, 0x2029, 0x202f, 0x205f, 0x3000]

namespace CaseRange

/-- The first and the last of the runes that a range maps to. -/
def image : CaseRange → ℕ × ℕ
  | shifted lo hi target => (target, target + (hi - lo))
  | alternating lo hi => (lo, hi)

/-- The second range takes nothing that the first one maps to for upper case. -/
def leaves (r s : CaseRange) : Bool :=
  r.image.2.blt s.lo || s.hi.blt r.image.1 ||
    match r, s with
    | shifted lo hi target, alternating lo' _ => lo == hi && (target + lo') % 2 == 1
    | alternating lo _, alternating lo' _ => (lo + lo') % 2 == 0
    | _, shifted .. => false

/-- A range maps to characters, none of them white space. -/
def visible (r : CaseRange) : Bool :=
  (r.image.2.blt 0xd800 || Nat.blt 0xdfff r.image.1 && r.image.2.blt 0x110000) &&
    (spaceCodes.all fun c => c.blt r.image.1 || r.image.2.blt c) &&
      match r with
      | shifted .. => true
      | alternating lo hi => (hi - lo) % 2 == 1

lemma leaves_caseRanges :
    (caseRanges.all fun r => r.visible && caseRanges.all fun s => r.leaves s) = true := by
  decide +kernel

variable {r s : CaseRange} {n : ℕ}

lemma lower_mem_image (hr : r.visible = true) (hn : r.lo ≤ n ∧ n ≤ r.hi) :
    r.image.1 ≤ r.lower n ∧ r.lower n ≤ r.image.2 := by
  cases r with
  | shifted lo hi target =>
    simp only [CaseRange.lo, CaseRange.hi] at hn
    simp only [image, lower]
    omega
  | alternating lo hi =>
    have hparity : (hi - lo) % 2 = 1 := by simpa using (Bool.and_eq_true_iff.mp hr).2
    simp only [CaseRange.lo, CaseRange.hi] at hn
    simp only [image, lower]
    omega

lemma lower_of_leaves (hr : r.visible = true) (h : r.leaves s = true) (hn : r.lo ≤ n ∧ n ≤ r.hi)
    (hs : s.lo ≤ r.lower n ∧ r.lower n ≤ s.hi) : s.lower (r.lower n) = r.lower n := by
  have himage := lower_mem_image hr hn
  unfold leaves at h
  simp only [Bool.or_eq_true, Nat.blt_eq] at h
  rcases h with (h | h) | h
  · omega
  · omega
  cases r <;> cases s <;> simp only [Bool.false_eq_true] at h <;>
    simp only [Bool.and_eq_true, beq_iff_eq] at h <;>
    simp only [lo, hi, lower] at hn hs ⊢ <;> omega

end CaseRange

/-- A rune is its own lower case, or its lower case is what the first range it is in says. -/
lemma lowerCode_cases (n : ℕ) : lowerCode n = n ∨
    ∃ r ∈ caseRanges, (r.lo ≤ n ∧ n ≤ r.hi) ∧ lowerCode n = r.lower n := by
  unfold lowerCode
  cases hfind : caseRanges.find? fun r => r.lo.ble n && n.ble r.hi with
  | none => exact .inl rfl
  | some r =>
    have hin := List.find?_some hfind
    rw [Bool.and_eq_true, Nat.ble_eq, Nat.ble_eq] at hin
    exact .inr ⟨r, List.mem_of_find?_eq_some hfind, hin, rfl⟩

lemma visible_of_mem {r : CaseRange} (hr : r ∈ caseRanges) :
    r.visible = true ∧ ∀ s ∈ caseRanges, r.leaves s = true := by
  have h := List.all_eq_true.mp leaves_caseRanges r hr
  rw [Bool.and_eq_true] at h
  exact ⟨h.1, List.all_eq_true.mp h.2⟩

/-- **Lower case is its own lower case.** -/
theorem lowerCode_lowerCode (n : ℕ) : lowerCode (lowerCode n) = lowerCode n := by
  rcases lowerCode_cases n with h | ⟨r, hr, hn, h⟩
  · rw [h, h]
  · rw [h]
    rcases lowerCode_cases (r.lower n) with h' | ⟨s, hs, hn', h'⟩
    · exact h'
    · rw [h', lower_of_leaves (visible_of_mem hr).1 ((visible_of_mem hr).2 s hs) hn hn']

lemma isValidChar_lowerCode {n : ℕ} (h : n.isValidChar) : (lowerCode n).isValidChar := by
  rcases lowerCode_cases n with h' | ⟨r, hr, hn, h'⟩
  · rwa [h']
  · rw [h']
    obtain ⟨hvisible, -⟩ := visible_of_mem hr
    have himage := lower_mem_image hvisible hn
    unfold visible at hvisible
    simp only [Bool.and_eq_true, Bool.or_eq_true, Nat.blt_eq] at hvisible
    unfold Nat.isValidChar
    omega

lemma lowerCode_not_space {n : ℕ} (h : n ∉ spaceCodes) : lowerCode n ∉ spaceCodes := by
  rcases lowerCode_cases n with h' | ⟨r, hr, hn, h'⟩
  · rwa [h']
  · rw [h']
    obtain ⟨hvisible, -⟩ := visible_of_mem hr
    have himage := lower_mem_image hvisible hn
    unfold visible at hvisible
    simp only [Bool.and_eq_true, List.all_eq_true, Bool.or_eq_true, Nat.blt_eq] at hvisible
    intro hspace
    have hapart := hvisible.1.2 _ hspace
    omega

lemma ascii_of_lowerCode {n : ℕ} (h : lowerCode n < 0x80) (hi : lowerCode n ≠ 0x69)
    (hk : lowerCode n ≠ 0x6b) : n < 0x80 := by
  have hranges : (caseRanges.all fun r => r.hi.blt 0x80 || Nat.ble 0x80 r.image.1 ||
      r.image == (0x69, 0x69) || r.image == (0x6b, 0x6b)) = true := by decide +kernel
  rcases lowerCode_cases n with h' | ⟨r, hr, hn, h'⟩
  · omega
  · have himage := lower_mem_image (visible_of_mem hr).1 hn
    have hr' := List.all_eq_true.mp hranges r hr
    simp only [Bool.or_eq_true, Nat.blt_eq, Nat.ble_eq, beq_iff_eq] at hr'
    rcases hr' with ((hr' | hr') | hr') | hr'
    · -- the range is in ASCII
      omega
    · -- its image is not
      omega
    · -- its image is one of the two letters
      rw [hr'] at himage
      omega
    · rw [hr'] at himage
      omega

end CodexOne

import Rulebook.Proofs.Bytes.Parser
import Rulebook.Proofs.SplitPlace

/-!
# Faults and groups from bytes

A text may be cut behind each of its prefixes (`slice_append`), and that is how slices are shown to
exist in what follows: an offset is always the number of bytes of a prefix.

The depth changes by one at most with each byte.  So the counter is large enough for the whole walk
if it is larger than the depth at the start and the bytes to come together (`Fits`), and each step
leaves this so.  A walk over bytes then goes on character by character: through an ASCII character
in one step, which is the step of the scan of characters, and through any other without a change.

* `step_of_fits`: a step does not overflow, and the next one will not.
* `balanceFault_bytes`: the fault of a text from its bytes.
* `groupInterior_bytes`, `peelGroups_bytes`: one round of peeling, and all of them.
-/

namespace Rulebook

namespace Bytes

open Text (IsAscii bytes trim)

variable {s : Scan} {cs inside : List Char} {xs ys : List UInt8} {b : UInt8} {half n : Nat}

/-! ## Slices -/

/-- A text can be cut at the end of each of its prefixes. -/
theorem cut?_append (before after : List Char) :
    cut? (before ++ after) (bytes before).length = some (before, after) := by
  induction before with
  | nil => cases after <;> rfl
  | cons c before ih =>
    have hpos := Char.utf8Size_pos c
    rw [List.cons_append, cut?, Text.length_bytes_cons, if_neg (by omega), if_neg (by omega),
      Nat.add_sub_cancel_left, ih]
    rfl

theorem slice_append (before inside after : List Char) :
    slice (before ++ inside ++ after) (bytes before).length (bytes (before ++ inside)).length =
      .ok inside := by
  rw [slice, cut?_append]
  dsimp only
  rw [cut?_append]

/-! ## Steps -/

/-- The counter is large enough for so many steps. -/
def Fits (half : Nat) (s : ByteScan) (n : Nat) : Prop := s.depth.natAbs + n < half

theorem fits_start (h : n < half) : Fits half Scan.start.inBytes n := by
  simpa [Fits, Scan.start] using h

theorem Fits.of_add {s : ByteScan} {m : Nat} (h : Fits half s (m + n)) : Fits half s n := by
  rw [Fits] at h ⊢
  omega

theorem natAbs_depth_step_le (s : ByteScan) (b : UInt8) :
    (s.step b).2.depth.natAbs ≤ s.depth.natAbs + 1 := by
  rw [ByteScan.step]
  split
  · split <;> exact Nat.le_succ _
  · split
    · exact Nat.le_succ _
    · split
      · dsimp only
        omega
      · split
        · dsimp only
          omega
        · exact Nat.le_succ _

theorem step_of_fits {s : ByteScan} (h : Fits half s (n + 1)) :
    step half s b = .ok (s.step b) ∧ Fits half (s.step b).2 n := by
  have hle := natAbs_depth_step_le s b
  simp only [Fits] at h ⊢
  refine ⟨if_pos ?_, by omega⟩
  omega

/-! ## Balance -/

theorem endFault?_inBytes (s : Scan) : endFault? s.inBytes = s.endFault? := by
  obtain ⟨depth, _ | q⟩ := s <;> rfl

/-- In the middle of characters there is no fault. -/
theorem balanceFaultFrom_skip (hs : ∀ q ∈ s.quote, Text.isQuote q = true) (hxs : ∀ b ∈ xs, 128 ≤ b)
    (hdepth : 0 ≤ s.depth) (hfits : Fits half s.inBytes (xs.length + n)) (i : Nat) :
    balanceFaultFrom half s.inBytes i (xs ++ ys) =
      balanceFaultFrom half s.inBytes (i + xs.length) ys := by
  induction xs generalizing i with
  | nil => rfl
  | cons b xs ih =>
    obtain ⟨hb, hrest⟩ := List.forall_mem_cons.mp hxs
    rw [List.length_cons, Nat.add_right_comm] at hfits
    obtain ⟨hstep, hnext⟩ := step_of_fits (b := b) hfits
    rw [Scan.step_of_le hs hb] at hstep hnext
    have hnonneg : ¬ s.inBytes.depth < 0 := Int.not_lt.mpr hdepth
    rw [List.cons_append, balanceFaultFrom, hstep]
    show (if s.inBytes.depth < 0 then _ else balanceFaultFrom half s.inBytes (i + 1) (xs ++ ys)) = _
    rw [if_neg hnonneg, ih hrest hnext, List.length_cons, Nat.add_right_comm, ← Nat.add_assoc]

/-- The fault of the bytes of a text is the fault of the text. -/
theorem balanceFaultFrom_bytes (hs : ∀ q ∈ s.quote, Text.isQuote q = true) (hdepth : 0 ≤ s.depth)
    (hfits : Fits half s.inBytes (bytes cs).length) (i : Nat) :
    balanceFaultFrom half s.inBytes i (bytes cs) = .ok (balanceFaultFrom? s i cs) := by
  induction cs generalizing s i with
  | nil => exact congrArg Except.ok (endFault?_inBytes s)
  | cons c cs ih =>
    by_cases hc : IsAscii c
    · rw [Text.bytes_cons_of_isAscii hc] at hfits ⊢
      obtain ⟨hstep, hnext⟩ := step_of_fits (b := c.toUInt8) hfits
      rw [Scan.step_toUInt8 hs hc] at hstep hnext
      rw [balanceFaultFrom, hstep, balanceFaultFrom?]
      show (if (s.step c).depth < 0 then _ else
        balanceFaultFrom half (s.step c).inBytes (i + 1) (bytes cs)) = _
      split
      · rfl
      · next hnonneg =>
        rw [ih (fun q => Scan.isQuote_of_mem_quote_step hs) (Int.not_lt.mp hnonneg) hnext,
          Text.utf8Size_of_isAscii hc]
    · have hbytes := fun b => Text.le_of_mem_utf8EncodeChar (b := b) hc
      have hstep := Scan.step_of_not_isAscii hs hc
      rw [Text.bytes_cons, List.length_append] at hfits
      rw [Text.bytes_cons, balanceFaultFrom_skip hs hbytes hdepth hfits, balanceFaultFrom?, hstep,
        if_neg (Int.not_lt.mpr hdepth), String.length_utf8EncodeChar]
      exact ih hs hdepth hfits.of_add _

theorem balanceFault_bytes (h : (bytes cs).length < half) :
    balanceFault half (bytes cs) = .ok (balanceFault? cs) :=
  balanceFaultFrom_bytes Scan.isQuote_of_mem_quote_start (Int.le_refl 0) (fits_start h) 0

/-! ## Groups -/

theorem groupInterior?_group_eq (inside : List Char) :
    Rule.groupInterior? ('(' :: (inside ++ [')'])) =
      if isBalanced inside then some (trim inside) else none := by
  simp [Rule.groupInterior?]

theorem groupInterior_bytes (h : (bytes cs).length < half) :
    groupInterior half cs = .ok (Rule.groupInterior? cs) := by
  by_cases hends : ∃ inside, cs = '(' :: (inside ++ [')'])
  · obtain ⟨inside, rfl⟩ := hends
    have hsize : (bytes ('(' :: (inside ++ [')']))).length = (bytes inside).length + 2 := by
      rw [Text.bytes_cons_of_isAscii (by decide), Text.bytes_append, List.length_cons,
        List.length_append]
      rfl
    have hslice : slice ('(' :: (inside ++ [')'])) 1 ((bytes inside).length + 2 - 1) =
        .ok inside := by
      have hparts := slice_append ['('] inside [')']
      rwa [List.singleton_append, Text.bytes_cons_of_isAscii (by decide)] at hparts
    have hbalance : balanceFault half (bytes inside) = .ok (balanceFault? inside) :=
      balanceFault_bytes (by omega)
    rw [groupInterior, hsize, if_pos ⟨by omega, rfl, by simp [List.getLast?_cons]⟩, hslice,
      groupInterior?_group_eq, isBalanced]
    show (balanceFault half (bytes inside) >>= _) = _
    rw [hbalance]
    cases balanceFault? inside <;> rfl
  · have hnone : Rule.groupInterior? cs = none := by
      rw [Option.eq_none_iff_forall_ne_some]
      intro inside hinside
      obtain ⟨body, rfl, -⟩ := Rule.groupInterior?_eq_some_iff.mp hinside
      exact hends ⟨body, rfl⟩
    rw [groupInterior, hnone, if_neg]
    rintro ⟨hsize, hhead, hlast⟩
    cases cs with
    | nil => cases hhead
    | cons c rest =>
      cases hhead
      rcases List.eq_nil_or_concat rest with rfl | ⟨inside, d, rfl⟩
      · cases hlast
      · rw [List.concat_eq_append] at hends hlast
        rw [← List.cons_append, List.getLast?_concat] at hlast
        cases hlast
        exact hends ⟨inside, rfl⟩

/-- No part of a text has more bytes than the text. -/
theorem length_bytes_le (h : inside <:+: cs) : (bytes inside).length ≤ (bytes cs).length := by
  obtain ⟨before, after, rfl⟩ := h
  simp only [Text.bytes_append, List.length_append]
  omega

theorem isInfix_trim (cs : List Char) : trim cs <:+: cs := by
  obtain ⟨before, after, heq, -⟩ := Text.exists_eq_append_trim cs
  exact ⟨before, after, heq.symm⟩

theorem isInfix_of_groupInterior? (h : Rule.groupInterior? cs = some inside) : inside <:+: cs := by
  obtain ⟨body, rfl, -, rfl⟩ := Rule.groupInterior?_eq_some_iff.mp h
  exact (isInfix_trim body).trans ⟨['('], [')'], rfl⟩

theorem isInfix_peelGroups (cs : List Char) : Rule.peelGroups cs <:+: cs := by
  fun_induction Rule.peelGroups cs with
  | case1 cs inside hgroup ih => exact ih.trans (isInfix_of_groupInterior? hgroup)
  | case2 cs hnone => exact List.infix_rfl

theorem peelGroups_bytes (h : (bytes cs).length < half) :
    peelGroups half cs = .ok (Rule.peelGroups cs) := by
  have hround := groupInterior_bytes h
  fun_induction peelGroups half cs with
  | case1 cs crash hcrash =>
    rw [hcrash] at hround
    cases hround
  | case2 cs hnone =>
    rw [hnone] at hround
    rw [Rule.peelGroups_of_none (Except.ok.inj hround).symm]
  | case3 cs inside hinside ih =>
    rw [hinside] at hround
    have hgroup := (Except.ok.inj hround).symm
    have hsmall := Nat.lt_of_le_of_lt (length_bytes_le (isInfix_of_groupInterior? hgroup)) h
    rw [Rule.peelGroups_of_some hgroup, ih hsmall (groupInterior_bytes hsmall)]

end Bytes

end Rulebook

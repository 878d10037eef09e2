import Mathlib
import StackLink.Device.Link
import StackLink.Config.Manifest

/-!
# Clamped settings are valid settings

A link's three sizes have ranges: the receive buffer `0..512` (a whole payload), the stack
window `0..63` (two counts and two windows of 4-byte cells fit one payload) and the memory
window `0..511` (a payload less its status byte). The ranges are written twice: a link forces
the sizes it is built with into them (`StackLink.LinkConfig.clamp`), and the host and the
simulator check a manifest's sizes against them before building a link
(`StackLink.LinkConfig.validate`). This file says the ranges once
(`StackLink.LinkConfig.InRange`) and shows that both sides agree with it:

* `validate` passes exactly the settings in range (`StackLink.LinkConfig.validate_eq_none_iff`);
* clamping leaves exactly those alone (`StackLink.LinkConfig.clamp_eq_self_iff`), and whatever
  it returns is in range (`StackLink.LinkConfig.inRange_clamp`), so clamping twice is clamping
  once.

**Clamping and validation agree** (`StackLink.LinkConfig.clamp_and_validate_agree`): every
link's settings validate, whatever sizes it was built with; and a manifest that validates
builds a link whose settings are exactly the manifest's, with a receiver that takes the
manifest's buffer size. A mismatch between the two copies of the ranges would show up as a
valid manifest whose link silently runs with other sizes.
-/

namespace StackLink

namespace LinkConfig

/-- The two derived bounds: 63 cells of each stack, 511 bytes of memory. -/
theorem maxStackWindow_eq : maxStackWindow = 63 := rfl

theorem maxMemoryWindow_eq : maxMemoryWindow = 511 := rfl

/-- Every size within its range. -/
@[mk_iff]
structure InRange (c : LinkConfig) : Prop where
  buffer : 0 ≤ c.bufferSize ∧ c.bufferSize ≤ maxPayload
  stack : 0 ≤ c.stackWindow ∧ c.stackWindow ≤ maxStackWindow
  memory : 0 ≤ c.memoryWindow ∧ c.memoryWindow ≤ maxMemoryWindow

/-! ### Forcing one value into a range -/

section ClampTo

variable {lo hi v : Int}

theorem clampTo_mem (h : lo ≤ hi) : lo ≤ clampTo lo hi v ∧ clampTo lo hi v ≤ hi := by
  simp only [clampTo]
  omega

theorem clampTo_eq_self_iff (h : lo ≤ hi) : clampTo lo hi v = v ↔ lo ≤ v ∧ v ≤ hi := by
  simp only [clampTo]
  omega

end ClampTo

/-! ### Both sides against the ranges -/

/-- `validate` names a size exactly when one is out of range. -/
theorem validate_eq_none_iff (c : LinkConfig) : c.validate = none ↔ c.InRange := by
  rw [inRange_iff]
  unfold validate
  -- one check per size, in order; each fails exactly outside its range
  split_ifs with hb hs hm <;> simp only [false_iff, true_iff] <;> omega

/-- Clamping leaves a setting alone exactly when it is in range. -/
theorem clamp_eq_self_iff (c : LinkConfig) : c.clamp = c ↔ c.InRange := by
  rw [inRange_iff]
  obtain ⟨b, s, m, r⟩ := c
  simp only [clamp, mk.injEq, and_true]
  rw [clampTo_eq_self_iff (by decide), clampTo_eq_self_iff (by decide),
    clampTo_eq_self_iff (by decide)]

theorem inRange_clamp (c : LinkConfig) : c.clamp.InRange :=
  ⟨clampTo_mem (by decide), clampTo_mem (by decide), clampTo_mem (by decide)⟩

theorem clamp_clamp (c : LinkConfig) : c.clamp.clamp = c.clamp :=
  (clamp_eq_self_iff _).mpr (inRange_clamp c)

end LinkConfig

/-- A manifest that validates has link settings in range: their check is the first of its
checks. -/
theorem Manifest.linkConfig_inRange {m : Manifest} (h : m.validate = none) :
    m.linkConfig.InRange := by
  rw [← LinkConfig.validate_eq_none_iff]
  unfold Manifest.validate at h
  dsimp only at h
  rw [ite_eq_left_iff] at h
  -- a reason from the link settings would leave the joined list of reasons non-empty
  by_contra hne
  obtain ⟨s, hs⟩ := Option.ne_none_iff_exists'.mp hne
  exact absurd (h (by simp [hs])) (by simp)

namespace Link

@[simp] theorem new_config (mach : Machine) (c : LinkConfig) : (Link.new mach c).config = c.clamp :=
  rfl

@[simp] theorem bufferCapacity_new (mach : Machine) (c : LinkConfig) :
    (Link.new mach c).bufferCapacity = c.clamp.bufferSize.toNat :=
  rfl

end Link

namespace LinkConfig

/-- **Clamping and validation agree.** The settings a link is built with, whatever the three
sizes, are clamped into `0..512`, `0..63` and `0..511` and then pass validation; clamping twice
is clamping once; and a setting passes validation exactly when clamping leaves it alone. So a
manifest that validates builds a link whose effective settings are the manifest's own, and whose
receiver takes the manifest's buffer size. -/
theorem clamp_and_validate_agree :
    maxStackWindow = 63 ∧ maxMemoryWindow = 511 ∧
    (∀ (mach : Machine) (b s m : Int) (r : Bool),
      (Link.new mach ⟨b, s, m, r⟩).config = ⟨max 0 (min b 512), max 0 (min s 63), max 0 (min m 511), r⟩ ∧
        (Link.new mach ⟨b, s, m, r⟩).config.validate = none) ∧
    (∀ c : LinkConfig, c.clamp.clamp = c.clamp) ∧
    (∀ c : LinkConfig, c.validate = none ↔ c.clamp = c) ∧
    ∀ (mach : Machine) (m : Manifest), m.validate = none →
      (Link.new mach m.linkConfig).config = m.linkConfig ∧
        ((Link.new mach m.linkConfig).bufferCapacity : Int) = m.link.bufferSize := by
  refine ⟨maxStackWindow_eq, maxMemoryWindow_eq, fun mach b s m r => ⟨rfl, ?_⟩, clamp_clamp,
    fun c => (validate_eq_none_iff c).trans (clamp_eq_self_iff c).symm, fun mach m hm => ?_⟩
  · rw [Link.new_config, validate_eq_none_iff]
    exact inRange_clamp _
  · -- a manifest that validates has its link settings in range, which clamping keeps
    have hfix : m.linkConfig.clamp = m.linkConfig :=
      (clamp_eq_self_iff _).mpr (Manifest.linkConfig_inRange hm)
    have hbuf : 0 ≤ m.link.bufferSize := (Manifest.linkConfig_inRange hm).buffer.1
    refine ⟨hfix, ?_⟩
    rw [Link.bufferCapacity_new, hfix]
    exact Int.toNat_of_nonneg hbuf

/-- The default manifest validates, and the link it builds runs with its settings: a 512-byte
buffer, 63 cells of each stack and 256 bytes of memory. -/
theorem default_manifest_link_keeps_settings :
    Manifest.default.validate = none ∧
      (Link.new (Machine.new .default) Manifest.default.linkConfig).config =
        Manifest.default.linkConfig ∧
      ((Link.new (Machine.new .default) Manifest.default.linkConfig).bufferCapacity : Int) =
        Manifest.default.link.bufferSize := by
  have hv : Manifest.default.validate = none := by decide
  exact ⟨hv, clamp_and_validate_agree.2.2.2.2.2 _ _ hv⟩

end LinkConfig

end StackLink

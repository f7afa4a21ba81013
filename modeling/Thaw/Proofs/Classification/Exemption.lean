import Mathlib.Logic.Basic
import Thaw.Classification

namespace Thaw
set_option autoImplicit true

namespace DeviceNumber

theorem make_major_minor (d : DeviceNumber) : make d.major d.minor = d := by
  have hlt := d.word.toNat_lt
  have hhigh : d.major / 0x1000 = d.word.toNat / 0x100000000000 := by
    unfold major
    omega
  have hlow : d.major % 0x1000 = d.word.toNat / 0x100 % 0x1000 := by
    unfold major
    omega
  have hhigh' : d.minor / 0x100 = d.word.toNat / 0x100000 % 0x1000000 := by
    unfold minor
    omega
  have hlow' : d.minor % 0x100 = d.word.toNat % 0x100 := by
    unfold minor
    omega
  have hword : d.word.toNat / 0x100000000000 * 0x100000000000 +
      d.word.toNat / 0x100000 % 0x1000000 * 0x100000 + d.word.toNat / 0x100 % 0x1000 * 0x100 +
      d.word.toNat % 0x100 = d.word.toNat := by omega
  rw [make, hhigh, hlow, hhigh', hlow', hword, UInt64.ofNat_toNat]

theorem isRandom_iff (d : DeviceNumber) : d.isRandom = true ↔ d = make 1 8 ∨ d = make 1 9 := by
  constructor
  · intro h
    rw [isRandom, Bool.and_eq_true, Bool.or_eq_true] at h
    simp only [decide_eq_true_eq] at h
    obtain ⟨hmajor, hminor | hminor⟩ := h
    · exact .inl (hmajor ▸ hminor ▸ (make_major_minor d).symm)
    · exact .inr (hmajor ▸ hminor ▸ (make_major_minor d).symm)
  · rintro (rfl | rfl) <;> decide

end DeviceNumber

/-- The marks `b` exempt at least what `a` do. To be beyond restoring takes an exemption away, so that
`b` may say so only where `a` does. -/
structure Marks.Milder (a b : Marks) : Prop where
  classPath : a.classPath = true → b.classPath = true
  isPersistent : a.isPersistent = true → b.isPersistent = true
  cannotRestore : b.cannotRestore = true → a.cannotRestore = true

theorem Marks.Milder.restorable {a b : Marks} (h : a.Milder b) (ha : a.cannotRestore = false) :
    b.cannotRestore = false := by
  rw [← Bool.not_eq_true]
  intro hb
  rw [h.cannotRestore hb] at ha
  cases ha

theorem Marks.Milder.refl (a : Marks) : a.Milder a := ⟨id, id, id⟩

namespace Policy

/-- Why a descriptor that shares no open file does not block the checkpoint. -/
inductive Exempts (p : Policy) (s : Slot) (status : FileStatus) : Prop where
  | inherited (h : (s.fd : Int) ∈ p.inherited)
  | randomDevice (hkind : status.kind = .character)
      (hdevice : status.device = .make 1 8 ∨ status.device = .make 1 9)
  | classPath (hmark : s.marks.classPath = true) (hkept : s.marks.cannotRestore = false)
  | persistent (hmark : s.marks.isPersistent = true)
  | controlSocket (hkind : status.kind = .socket) (h : p.isControlSocket s.fd = true)

variable {p : Policy} {s : Slot} {status : FileStatus}

theorem judge_of_alias (h : s.state = .aliasOf root) : p.judge s status = .duplicate root := by
  rw [judge, h]

/-- The reasons are tried one after the other; only a descriptor without any of them is blocked. -/
theorem judge_cases (p : Policy) (status : FileStatus) (hs : ∀ root, s.state ≠ .aliasOf root) :
    p.Exempts s status ∧
        p.judge s status ∈ [.inherited, .randomDevice, .classPath, .persistent, .controlSocket] ∨
      ¬ p.Exempts s status ∧ p.judge s status = .blocked (.ofFile status.kind) := by
  unfold judge
  split
  case h_1 root hstate => exact absurd hstate (hs root)
  case h_2 =>
    split
    case isTrue h => exact .inl ⟨.inherited (List.contains_iff_mem.1 h), by simp⟩
    case isFalse hinherited =>
      split
      case isTrue h =>
        exact .inl ⟨.randomDevice h.1 ((DeviceNumber.isRandom_iff _).1 h.2), by simp⟩
      case isFalse hrandom =>
        split
        case isTrue h => exact .inl ⟨.classPath h.1 (Bool.eq_false_iff.2 h.2), by simp⟩
        case isFalse hclass =>
          split
          case isTrue h => exact .inl ⟨.persistent h, by simp⟩
          case isFalse hpersistent =>
            split
            case isTrue h => exact .inl ⟨.controlSocket h.1 h.2, by simp⟩
            case isFalse hcontrol =>
              refine .inr ⟨fun he => ?_, rfl⟩
              cases he with
              | inherited h => exact hinherited (List.contains_iff_mem.2 h)
              | randomDevice hkind hdevice =>
                exact hrandom ⟨hkind, (DeviceNumber.isRandom_iff _).2 hdevice⟩
              | classPath hmark hkept => exact hclass ⟨hmark, Bool.eq_false_iff.1 hkept⟩
              | persistent hmark => exact hpersistent hmark
              | controlSocket hkind h => exact hcontrol ⟨hkind, h⟩

theorem judge_eq_duplicate_iff :
    p.judge s status = .duplicate root ↔ s.state = .aliasOf root := by
  refine ⟨fun h => ?_, judge_of_alias⟩
  cases hstate : s.state with
  | aliasOf other =>
    rw [judge_of_alias hstate] at h
    cases h
    rfl
  | closed | root =>
    rcases judge_cases p status (s := s) (by simp [hstate]) with ⟨-, hj⟩ | ⟨-, hj⟩
    · simp [h] at hj
    · cases h.symm.trans hj

theorem judge_eq_blocked_iff :
    p.judge s status = .blocked kind ↔
      (∀ root, s.state ≠ .aliasOf root) ∧ ¬ p.Exempts s status ∧ kind = .ofFile status.kind := by
  constructor
  · intro h
    have hs : ∀ root, s.state ≠ .aliasOf root := fun root hstate => by
      cases h.symm.trans (judge_of_alias hstate)
    rcases judge_cases p status hs with ⟨-, hj⟩ | ⟨he, hj⟩
    · simp [h] at hj
    · exact ⟨hs, he, Verdict.blocked.inj (h.symm.trans hj)⟩
  · rintro ⟨hs, he, rfl⟩
    exact ((judge_cases p status hs).resolve_left fun h => he h.1).2

/-- The policy `q` exempts all that `p` exempts on account of its descriptor alone. -/
structure Milder (p q : Policy) : Prop where
  inherited : p.inherited ⊆ q.inherited
  controlSocket : ∀ fd, p.isControlSocket fd = true → q.isControlSocket fd = true

/-- A descriptor that is exempt remains so under a milder policy and with milder marks. -/
theorem Exempts.mono {q : Policy} {t : Slot} (h : p.Exempts s status) (hp : p.Milder q)
    (hfd : t.fd = s.fd) (hmarks : s.marks.Milder t.marks) : q.Exempts t status := by
  cases h with
  | inherited h =>
    apply Exempts.inherited
    rw [hfd]
    exact hp.inherited h
  | randomDevice hkind hdevice => exact .randomDevice hkind hdevice
  | classPath hmark hkept => exact .classPath (hmarks.classPath hmark) (hmarks.restorable hkept)
  | persistent hmark => exact .persistent (hmarks.isPersistent hmark)
  | controlSocket hkind h =>
    apply Exempts.controlSocket hkind
    rw [hfd]
    exact hp.controlSocket s.fd h

end Policy

end Thaw

import Bindery.Dispatch.Pattern
import Bindery.Proofs.Convert.RoundTrip

/-!
# Matching, accepting and converting agree

Three functions decide what a parameter takes: the pattern that a call is matched against, the
test for the right kind of value, and the conversion itself. What converts is accepted and
matches. What matches converts, unless a number or a text does not fit its kind, or an object
that is to be shared is not held by a living holder.

## Main definitions

* `FailsByRange`: a conversion that fails only because a value is out of range.
* `Store.IsHolder`: a handle that holds a living object together with others.

## Main statements

* `ArrayType.matches_of_ofHost`, `ArrayType.failsByRange_ofHost`: arrays.
* `NativeType.deciders_agree`: all types but `void` and those that are passed through.
-/
namespace Bindery

/-! ## Values out of range -/

section FailsByRange

variable {α β : Type}

/-- The conversion gives a result, or the value is out of range. -/
def FailsByRange (x : Except ConversionFault α) : Prop :=
  ∀ fault, x = .error fault → ∃ value target, fault = .range value target

theorem failsByRange_ok (a : α) : FailsByRange (.ok a) := by
  intro fault h
  cases h

theorem failsByRange_range (value target : String) :
    FailsByRange (.error (.range value target) : Except ConversionFault α) := by
  intro fault h
  cases h
  exact ⟨value, target, rfl⟩

theorem FailsByRange.map {x : Except ConversionFault α} (h : FailsByRange x) (f : α → β) :
    FailsByRange (x.map f) := by
  cases x with
  | ok a => exact failsByRange_ok (f a)
  | error fault =>
    obtain ⟨value, target, rfl⟩ := h fault rfl
    exact failsByRange_range value target

theorem FailsByRange.bind {x : Except ConversionFault α} {f : α → Except ConversionFault β}
    (hx : FailsByRange x) (hf : ∀ a, FailsByRange (f a)) : FailsByRange (x >>= f) := by
  cases x with
  | ok a => exact hf a
  | error fault =>
    obtain ⟨value, target, rfl⟩ := hx fault rfl
    exact failsByRange_range value target

theorem failsByRange_mapM {f : α → Except ConversionFault β} (hf : ∀ a, FailsByRange (f a))
    (xs : List α) : FailsByRange (xs.mapM f) := by
  induction xs with
  | nil => exact failsByRange_ok []
  | cons x xs ih =>
    rw [List.mapM_cons]
    exact (hf x).bind fun y => ih.bind fun ys => failsByRange_ok (y :: ys)

/-- A conversion that fails only by range gives a result or a range fault. -/
theorem FailsByRange.cases {x : Except ConversionFault α} (h : FailsByRange x) :
    (∃ a, x = .ok a) ∨ ∃ value target, x = .error (.range value target) := by
  cases x with
  | ok a => exact .inl ⟨a, rfl⟩
  | error fault =>
    obtain ⟨value, target, rfl⟩ := h fault rfl
    exact .inr ⟨value, target, rfl⟩

end FailsByRange

/-! ## Scalars -/

namespace ScalarKind

variable {k : ScalarKind} {v : HostValue}

theorem exists_integerRange (h : k.isInteger = true) : ∃ range, k.integerRange? = some range := by
  cases k <;> simp_all [isInteger, isSigned, isUnsigned, integerRange?]

theorem failsByRange_ofInteger (h : k.isInteger = true) (n : Int) :
    FailsByRange (k.ofInteger n) := by
  obtain ⟨⟨low, high⟩, hrange⟩ := exists_integerRange h
  rw [ofInteger, hrange]
  dsimp only
  split
  · exact failsByRange_range _ _
  · split <;> exact failsByRange_ok _

theorem failsByRange_ofFloat (k : ScalarKind) (x : Float) : FailsByRange (k.ofFloat x) := by
  unfold ofFloat
  split
  · split
    · exact failsByRange_range _ _
    · exact failsByRange_ok _
  · exact failsByRange_ok _

theorem failsByRange_ofExactInteger (k : ScalarKind) (i : Int64) :
    FailsByRange (k.ofExactInteger i) := by
  unfold ofExactInteger
  split
  · exact failsByRange_ofFloat k _
  · exact failsByRange_range _ _

/-- What converts to a scalar is accepted as one. -/
theorem accepts_of_ofHost {y : NativeScalar} (h : k.ofHost v = .ok y) : k.accepts v = true := by
  cases v with
  | bool b =>
    simp only [ofHost] at h
    split at h
    · simpa [accepts]
    · cases h
  | str s =>
    simp only [ofHost] at h
    split at h
    · next hchar =>
      split at h
      · next c hs => simp [accepts, hchar, ← String.length_toList, hs]
      · cases h
    · cases h
  | int i =>
    simp only [ofHost] at h
    split at h
    · next hinteger => simp [accepts, hinteger]
    · split at h
      · next hfloat => simp [accepts, hfloat]
      · cases h
  | float x =>
    simp only [ofHost] at h
    split at h
    · simpa [accepts]
    · cases h
  | nothing | array _ | object _ => cases h

/-- What is accepted as a scalar matches the scalar's pattern. -/
theorem exists_tier_of_accepts (h : k.accepts v = true) :
    ∃ tier, k.tier? (.ofValue v) = some tier := by
  cases v with
  | bool b => exact ⟨.exact, by simpa [tier?, ArgTag.ofValue, accepts] using h⟩
  | str s =>
    simp only [accepts, Bool.and_eq_true, decide_eq_true_eq] at h
    exact ⟨.compatible, by simp [tier?, ArgTag.ofValue, h.1]⟩
  | int i =>
    by_cases hinteger : k.isInteger = true
    · exact ⟨.exact, by simp [tier?, ArgTag.ofValue, hinteger]⟩
    · have hfloat : k.isFloat = true := by simpa [accepts, hinteger] using h
      exact ⟨.compatible, by simp [tier?, ArgTag.ofValue, hinteger, hfloat]⟩
  | float x => exact ⟨.exact, by simpa [tier?, ArgTag.ofValue, accepts] using h⟩
  | nothing | array _ | object _ => cases h

/-- What matches the pattern of a scalar is of the right kind; a text may be too long. -/
theorem failsByRange_ofHost {tier : MatchTier} (h : k.tier? (.ofValue v) = some tier) :
    FailsByRange (k.ofHost v) := by
  cases v with
  | bool b =>
    have hbool : k = .bool := by
      by_contra hne
      simp [tier?, ArgTag.ofValue, hne] at h
    simpa [ofHost, hbool] using failsByRange_ok _
  | str s =>
    have hchar : k = .char := by
      by_contra hne
      simp [tier?, ArgTag.ofValue, hne] at h
    simp only [ofHost, hchar, if_true]
    split
    · split
      · exact failsByRange_ok _
      · exact failsByRange_range _ _
    · exact failsByRange_range _ _
  | int i =>
    simp only [ofHost]
    split
    · next hinteger => exact failsByRange_ofInteger hinteger _
    · next hinteger =>
      split
      · exact failsByRange_ofExactInteger k i
      · next hfloat => simp [tier?, ArgTag.ofValue, hinteger, hfloat] at h
  | float x =>
    have hfloat : k.isFloat = true := by
      by_contra hne
      simp [tier?, ArgTag.ofValue, hne] at h
    simpa [ofHost, hfloat] using failsByRange_ofFloat k x
  | nothing | array _ | object _ => cases h

end ScalarKind

/-! ## Arrays -/

namespace ArrayType

variable {a : ArrayType} {host : HostArray}

theorem acceptsElement_of_elements {buffer : HostBuffer} {data : List NativeScalar}
    (h : a.elements buffer = .ok data) : a.element.acceptsElement buffer.element = true := by
  cases buffer with
  | bools items =>
    simp only [elements] at h
    split at h
    · simpa [ScalarKind.acceptsElement, HostBuffer.element]
    · cases h
  | ints items =>
    simp only [elements] at h
    split at h
    · next hinteger => simp [ScalarKind.acceptsElement, HostBuffer.element, hinteger]
    · split at h
      · next hfloat => simp [ScalarKind.acceptsElement, HostBuffer.element, hfloat]
      · cases h
  | floats items =>
    simp only [elements] at h
    split at h
    · simpa [ScalarKind.acceptsElement, HostBuffer.element]
    · cases h

theorem failsByRange_elements {buffer : HostBuffer}
    (h : a.element.acceptsElement buffer.element = true) : FailsByRange (a.elements buffer) := by
  cases buffer with
  | bools items =>
    have hbool : a.element = .bool := by
      simpa [ScalarKind.acceptsElement, HostBuffer.element] using h
    simpa [elements, hbool] using failsByRange_ok _
  | ints items =>
    simp only [elements]
    split
    · next hinteger =>
      exact failsByRange_mapM (fun i => ScalarKind.failsByRange_ofInteger hinteger _) items
    · next hinteger =>
      have hfloat : a.element.isFloat = true := by
        simpa [ScalarKind.acceptsElement, HostBuffer.element, hinteger] using h
      rw [if_pos hfloat]
      exact failsByRange_mapM (ScalarKind.failsByRange_ofExactInteger a.element) items
  | floats items =>
    have hfloat : a.element.isFloat = true := by
      simpa [ScalarKind.acceptsElement, HostBuffer.element] using h
    simp only [elements, if_pos hfloat]
    exact failsByRange_mapM (ScalarKind.failsByRange_ofFloat a.element) items

/-- An array that converts has elements and a shape that are accepted. -/
theorem accepts_of_ofHost {n : NativeArray} (h : a.ofHost host = .ok n) :
    a.element.acceptsElement host.element = true ∧ a.acceptsShape host.shape = true := by
  unfold ofHost at h
  split at h
  · next hshape =>
    cases hdata : a.elements host.buffer with
    | error fault => simp [hdata, bind, Except.bind] at h
    | ok data => exact ⟨acceptsElement_of_elements hdata, hshape⟩
  · cases h

theorem failsByRange_ofHost (helement : a.element.acceptsElement host.element = true)
    (hshape : a.acceptsShape host.shape = true) : FailsByRange (a.ofHost host) := by
  rw [ofHost, if_pos hshape]
  exact (failsByRange_elements helement).bind fun data => failsByRange_ok _

/-- An array matches the pattern of an array type just when its elements and its shape are
accepted. -/
theorem exists_tier_iff {isSubclass : String → String → Bool} :
    (∃ tier, (ArgPattern.array a.element a.dims).tier? isSubclass
      (.array host.element host.shape) = some tier) ↔
    a.element.acceptsElement host.element = true ∧ a.acceptsShape host.shape = true := by
  simp only [ArgPattern.tier?, acceptsShape]
  cases a.element.acceptsElement host.element with
  | false => simp
  | true =>
    cases a.dims with
    | none => simp
    | some dims => cases Dim.acceptAll dims host.shape <;> simp

end ArrayType

/-! ## Objects -/

/-- The handle holds a living object together with others. -/
def Store.IsHolder (s : Store) (h : Handle) : Prop :=
  h.ownership = .shared ∧ ∃ cell, s.wrapper h = .owns cell

namespace NativeType

variable {isSubclass : String → String → Bool} {className : String} {h : Handle} {s : Store}

/-- Only where an object is to be shared can its handle be refused, and only if it is not held
by a living holder. -/
theorem handleToNative_cases (className : String) (ownership : Ownership) (h : Handle)
    (s : Store) :
    (∃ n t, handleToNative className ownership h s = .ok (n, t)) ∨
    ownership = .shared ∧ ¬ s.IsHolder h ∧ handleToNative className ownership h s =
      .error (.typeMismatch ("std::shared_ptr<" ++ className ++ ">") h.className) := by
  cases ownership with
  | ownedByWrapper => exact .inl ⟨_, _, rfl⟩
  | borrowed => exact .inl ⟨_, _, rfl⟩
  | shared =>
    cases hshare : s.share h with
    | ok r => exact .inl ⟨.object r.1, r.2, by simp [handleToNative, hshare]⟩
    | error fault =>
      refine .inr ⟨rfl, ?_, by simp [handleToNative, hshare]⟩
      rintro ⟨hshared, cell, howns⟩
      simp [Store.share, hshared, howns] at hshare

/-- A handle matches the pattern of a class just when its own class is that one or derives from
it. -/
theorem exists_tier_object_iff (isNullable : Bool) :
    (∃ tier, (ArgPattern.object className isNullable).tier? isSubclass (.object h.className) =
      some tier) ↔ h.className = className ∨ isSubclass h.className className = true := by
  simp only [ArgPattern.tier?]
  by_cases hsame : h.className = className
  · simp [hsame]
  · cases isSubclass h.className className <;> simp [hsame]

/-! ## All types -/

theorem toNative_scalar (kind : ScalarKind) (v : HostValue) (s : Store) :
    (scalar kind).toNative isSubclass v s = (kind.ofHost v).map fun x => (.scalar x, s) := by
  cases hx : kind.ofHost v <;> simp [toNative, hx, Except.map]

theorem toNative_array (a : ArrayType) (host : HostArray) (s : Store) :
    (array a).toNative isSubclass (.array host) s = (a.ofHost host).map fun n => (.array n, s) := by
  cases hn : a.ofHost host <;> simp [toNative, hn, Except.map]

theorem toNative_object (className : String) (ownership : Ownership) (h : Handle) (s : Store) :
    (object className ownership).toNative isSubclass (.object h) s =
      if h.className = className ∨ isSubclass h.className className = true then
        handleToNative className ownership h s
      else .error (.typeMismatch className h.className) := by
  simp only [toNative, accepts, Bool.or_eq_true, decide_eq_true_eq]
  split <;> rfl

/-- What converts is accepted and matches. -/
theorem accepts_and_tier_of_toNative {t : NativeType} {p : ArgPattern}
    (hp : ArgPattern.ofNative? t = some p) {v : HostValue} {n : NativeValue} {s' : Store}
    (h : t.toNative isSubclass v s = .ok (n, s')) :
    t.accepts isSubclass v = true ∧ ∃ tier, p.tier? isSubclass (.ofValue v) = some tier := by
  cases t with
  | void => cases hp
  | hostObject => cases h
  | scalar kind =>
    cases hp
    rw [toNative_scalar] at h
    cases hx : kind.ofHost v with
    | error fault => simp [hx, Except.map] at h
    | ok x =>
      have haccepts := ScalarKind.accepts_of_ofHost hx
      exact ⟨haccepts, ScalarKind.exists_tier_of_accepts haccepts⟩
  | text form =>
    cases hp
    cases v with
    | str text => exact ⟨rfl, .exact, rfl⟩
    | _ => cases h
  | array a =>
    cases hp
    cases v with
    | array host =>
      rw [toNative_array] at h
      cases hn : a.ofHost host with
      | error fault => simp [hn, Except.map] at h
      | ok n =>
        have haccepts := ArrayType.accepts_of_ofHost hn
        exact ⟨haccepts.1, ArrayType.exists_tier_iff.2 haccepts⟩
    | _ => cases h
  | object className ownership =>
    cases hp
    cases v with
    | object handle =>
      rw [toNative_object] at h
      split at h
      · next hclass =>
        exact ⟨by simpa [accepts] using hclass, (exists_tier_object_iff _).2 hclass⟩
      · cases h
    | nothing =>
      have hborrowed : ownership = .borrowed := by
        by_contra hne
        simp [toNative, hne] at h
      exact ⟨by simpa [accepts], .compatible, by simp [ArgPattern.tier?, ArgTag.ofValue, hborrowed]⟩
    | _ => cases h

/-- What matches converts, or a value is out of range, or an object cannot be shared. -/
theorem toNative_of_tier {t : NativeType} {p : ArgPattern} (hhost : t ≠ .hostObject)
    (hp : ArgPattern.ofNative? t = some p) {v : HostValue} {tier : MatchTier}
    (h : p.tier? isSubclass (.ofValue v) = some tier) (s : Store) :
    (∃ n s', t.toNative isSubclass v s = .ok (n, s')) ∨
    (∃ value target, t.toNative isSubclass v s = .error (.range value target)) ∨
    ∃ className handle, t = object className .shared ∧ v = .object handle ∧
      ¬ s.IsHolder handle ∧ t.toNative isSubclass v s =
        .error (.typeMismatch ("std::shared_ptr<" ++ className ++ ">") handle.className) := by
  cases t with
  | void => cases hp
  | hostObject => exact absurd rfl hhost
  | scalar kind =>
    cases hp
    rw [toNative_scalar]
    have hfails := (ScalarKind.failsByRange_ofHost h).map fun x => (NativeValue.scalar x, s)
    obtain ⟨r, hr⟩ | hrange := hfails.cases
    · exact .inl ⟨r.1, r.2, hr⟩
    · exact .inr (.inl hrange)
  | text form =>
    cases hp
    cases v with
    | str text => exact .inl ⟨_, _, rfl⟩
    | _ => cases h
  | array a =>
    cases hp
    cases v with
    | array host =>
      rw [toNative_array]
      obtain ⟨helement, hshape⟩ := ArrayType.exists_tier_iff.1 ⟨tier, h⟩
      have hfails := (ArrayType.failsByRange_ofHost helement hshape).map
        fun n => (NativeValue.array n, s)
      obtain ⟨r, hr⟩ | hrange := hfails.cases
      · exact .inl ⟨r.1, r.2, hr⟩
      · exact .inr (.inl hrange)
    | _ => cases h
  | object className ownership =>
    cases hp
    cases v with
    | object handle =>
      rw [toNative_object, if_pos ((exists_tier_object_iff _).1 ⟨tier, h⟩)]
      obtain hok | ⟨rfl, hholder, hfault⟩ := handleToNative_cases className ownership handle s
      · exact .inl hok
      · exact .inr (.inr ⟨className, handle, rfl, rfl, hholder, hfault⟩)
    | nothing =>
      have hborrowed : ownership = .borrowed := by
        by_contra hne
        simp [ArgPattern.tier?, ArgTag.ofValue, hne] at h
      exact .inl ⟨.null, s, by simp [toNative, hborrowed]⟩
    | _ => cases h

/-- **The three deciders agree.** What converts is accepted and matches the pattern of its type.
What matches converts; the only faults are a value out of range, and an object that is to be
shared and whose handle is not a living holder of it. An array with fewer elements than its shape
has places, for which `Layout.move?` has no answer, is taken as it is. -/
theorem deciders_agree (isSubclass : String → String → Bool) (t : NativeType)
    (hvoid : t ≠ .void) (hhost : t ≠ .hostObject) (v : HostValue) (s : Store) :
    ∃ p, ArgPattern.ofNative? t = some p ∧
      (∀ n s', t.toNative isSubclass v s = .ok (n, s') →
        t.accepts isSubclass v = true ∧ ∃ tier, p.tier? isSubclass (.ofValue v) = some tier) ∧
      ∀ tier, p.tier? isSubclass (.ofValue v) = some tier →
        (∃ n s', t.toNative isSubclass v s = .ok (n, s')) ∨
        (∃ value target, t.toNative isSubclass v s = .error (.range value target)) ∨
        ∃ className handle, t = object className .shared ∧ v = .object handle ∧
          ¬ s.IsHolder handle ∧ t.toNative isSubclass v s =
            .error (.typeMismatch ("std::shared_ptr<" ++ className ++ ">") handle.className) := by
  obtain ⟨p, hp⟩ : ∃ p, ArgPattern.ofNative? t = some p := by
    cases t with
    | void => exact absurd rfl hvoid
    | _ => exact ⟨_, rfl⟩
  exact ⟨p, hp, fun n s' h => accepts_and_tier_of_toNative hp h,
    fun tier h => toNative_of_tier hhost hp h s⟩

/-- Two integers match a vector of bytes, so they convert or one is out of range. -/
theorem deciders_agree_bytes :
    NativeType.array ⟨.stdVector, .u8, some [.dynamic], .rowMajor⟩ ≠ .void ∧
    NativeType.array ⟨.stdVector, .u8, some [.dynamic], .rowMajor⟩ ≠ .hostObject ∧
    ((∃ n s', toNative (fun _ _ => false) (.array ⟨.stdVector, .u8, some [.dynamic], .rowMajor⟩)
        (.array ⟨[2], .ints [1, 300]⟩) default = .ok (n, s')) ∨
      ∃ value target, toNative (fun _ _ => false)
        (.array ⟨.stdVector, .u8, some [.dynamic], .rowMajor⟩)
        (.array ⟨[2], .ints [1, 300]⟩) default = .error (.range value target)) := by
  refine ⟨by decide, by decide, ?_⟩
  obtain ⟨p, hp, -, hmatches⟩ := deciders_agree (fun _ _ => false)
    (.array ⟨.stdVector, .u8, some [.dynamic], .rowMajor⟩) (by decide) (by decide)
    (.array ⟨[2], .ints [1, 300]⟩) default
  cases hp
  obtain hok | hrange | ⟨_, _, htype, _⟩ := hmatches .compatible (by decide)
  · exact .inl hok
  · exact .inr hrange
  · cases htype

end NativeType
end Bindery

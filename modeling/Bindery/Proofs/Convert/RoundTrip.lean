import Bindery.Convert
import Bindery.Proofs.Fallible
import Bindery.Proofs.Native.Odometer
import Bindery.Proofs.Store.Writing

/-!
# There and back across the boundary

A value that became a native value of some type comes back as the same value, except that a
floating-point kind turns numbers into the ones that it holds. Arrays come back in their shape,
whatever the order of their storage was, and handles reach the object that they reached before.

## Main definitions

* `ScalarKind.round`, `ScalarKind.kept`: what a kind holds of a number, and of a value.
* `HostArray.at?`: the element at a multi-index.

## Main statements

* `ScalarKind.toHost_of_ofHost`: scalars.
* `ArrayType.toHost_of_ofHost`: arrays.
-/
namespace Bindery

/-! ## Scalars -/

namespace ScalarKind

/-- The number that a floating-point kind holds for a number. Double precision holds every
number as it is. -/
def round (k : ScalarKind) (x : Float) : Float := if k = .f32 then x.toFloat32.toFloat else x

/-- What a kind holds of a host value: a floating-point kind holds numbers with its own
precision, and everything else is held as it is. -/
def kept (k : ScalarKind) : HostValue → HostValue
  | .int i => if k.isFloat then .float (k.round i.toFloat) else .int i
  | .float x => .float (k.round x)
  | v => v

variable {k : ScalarKind}

theorem ofFloat_eq_ok {x : Float} {y : NativeScalar} (h : k.ofFloat x = .ok y) :
    y = .float k (k.round x) := by
  unfold ofFloat at h
  unfold round
  grind

theorem ofExactInteger_eq_ok {i : Int64} {y : NativeScalar} (h : k.ofExactInteger i = .ok y) :
    y = .float k (k.round i.toFloat) := by
  unfold ofExactInteger at h
  split at h
  · exact ofFloat_eq_ok h
  · simp at h

/-- A number of the host that has no sign fits an unsigned number, and comes back from it. -/
theorem hostInt_ofNat {i : Int64} (h : 0 ≤ i.toInt) :
    NativeScalar.hostInt (UInt64.ofNat i.toInt.toNat) = .ok i := by
  have hlt : i.toInt < 2 ^ 63 := i.toInt_lt
  have hnat : (UInt64.ofNat i.toInt.toNat).toNat = i.toInt.toNat := by
    rw [UInt64.toNat_ofNat']
    omega
  have hle : ((i.toInt.toNat : Nat) : Int) ≤ Numeral.maxInt64 := by
    rw [Numeral.maxInt64]
    omega
  rw [NativeScalar.hostInt, hnat, if_pos hle, ← Int64.ofInt_eq_ofNat, Int.toNat_of_nonneg h,
    Int64.ofInt_toInt]

theorem low_nonneg_of_isUnsigned {low high : Int} (hrange : k.integerRange? = some (low, high))
    (hsigned : k.isSigned = false) : 0 ≤ low := by
  cases k <;> simp_all [integerRange?, isSigned]

theorem isFloat_of_isInteger (h : k.isInteger = true) : k.isFloat = false := by
  cases k <;> simp_all [isInteger, isSigned, isUnsigned, isFloat]

/-- What a kind makes of an integer that it holds. -/
theorem ofInteger_eq_ok {i : Int64} {y : NativeScalar} (h : k.ofInteger i.toInt = .ok y) :
    y = .signed k i ∨ 0 ≤ i.toInt ∧ y = .unsigned k (UInt64.ofNat i.toInt.toNat) := by
  unfold ofInteger at h
  split at h
  · simp at h
  · rename_i low high hrange
    split at h
    · simp at h
    · rename_i hin
      split at h
      · obtain rfl := Except.ok.inj h
        exact .inl (by rw [Int64.ofInt_toInt])
      · rename_i hsigned
        obtain rfl := Except.ok.inj h
        have hlow := low_nonneg_of_isUnsigned hrange (by simpa using hsigned)
        exact .inr ⟨by grind, rfl⟩

theorem toHostInt_of_ofInteger {i : Int64} {y : NativeScalar} (h : k.ofInteger i.toInt = .ok y) :
    y.toHostInt = .ok i := by
  rcases ofInteger_eq_ok h with rfl | ⟨hpos, rfl⟩
  · rfl
  · exact hostInt_ofNat hpos

/-- **A scalar comes back** as what its kind holds of the host value. -/
theorem toHost_of_ofHost {v : HostValue} {y : NativeScalar} (h : k.ofHost v = .ok y) :
    y.toHost = .ok (k.kept v) := by
  cases v with
  | bool b =>
    have hy : NativeScalar.bool b = y := by
      unfold ofHost at h
      grind
    rw [← hy]
    rfl
  | str s =>
    obtain ⟨c, hs, rfl⟩ : ∃ c, s.toList = [c] ∧ y = .char c := by
      unfold ofHost at h
      grind
    have hsingle : String.singleton c = s := String.toList_inj.1 (by simp [hs])
    rw [NativeScalar.toHost, hsingle]
    rfl
  | int i =>
    by_cases hinteger : k.isInteger = true
    · have hfloat := isFloat_of_isInteger hinteger
      have hy : k.ofInteger i.toInt = .ok y := by simpa [ofHost, hinteger] using h
      rw [kept, if_neg (by simp [hfloat])]
      rcases ofInteger_eq_ok hy with rfl | ⟨hpos, rfl⟩
      · rfl
      · rw [NativeScalar.toHost, hostInt_ofNat hpos]
        rfl
    · have hfloat : k.isFloat = true := by
        unfold ofHost at h
        grind
      have hy : k.ofExactInteger i = .ok y := by simpa [ofHost, hinteger, hfloat] using h
      rw [kept, if_pos hfloat, ofExactInteger_eq_ok hy]
      rfl
  | float x =>
    have hy : k.ofFloat x = .ok y := by
      unfold ofHost at h
      grind
    rw [ofFloat_eq_ok hy]
    rfl
  | nothing | array _ | object _ => simp [ofHost] at h

end ScalarKind

/-! ## Arrays -/

/-- The elements of a buffer as values. -/
def HostBuffer.values : HostBuffer → List HostValue
  | bools items => items.map .bool
  | ints items => items.map .int
  | floats items => items.map .float

/-- The element of an array at a multi-index. -/
def HostArray.at? (a : HostArray) (index : List Nat) : Option HostValue :=
  if inShape a.shape index then a.buffer.values[Layout.rowMajor.offset a.shape index]? else none

theorem map_eq_map_of_forall₂ {α β γ : Type} {R : α → β → Prop} {f : α → γ} {g : β → γ}
    (hR : ∀ x y, R x y → g y = f x) {xs : List α} {ys : List β} (h : List.Forall₂ R xs ys) :
    ys.map g = xs.map f := by
  induction h with
  | nil => rfl
  | cons hxy _ ih => rw [List.map_cons, List.map_cons, hR _ _ hxy, ih]

namespace NativeArray

variable {n : NativeArray}

/-- An array of a floating-point kind is read as numbers. -/
theorem toHost_of_isFloat (hfloat : n.element.isFloat = true) :
    n.toHost = .ok ⟨n.shape,
      .floats ((n.layout.move .rowMajor n.shape n.data).map NativeScalar.toFloat)⟩ := by
  have hbool : n.element ≠ .bool := fun hbool => by simp [hbool, ScalarKind.isFloat] at hfloat
  simp [toHost, hbool, hfloat, bind, Except.bind, pure, Except.pure]

/-- An array of an integer kind is read as integers, if all of them fit the host. -/
theorem toHost_of_isInteger (hinteger : n.element.isInteger = true) {items : List Int64}
    (h : (n.layout.move .rowMajor n.shape n.data).mapM NativeScalar.toHostInt = .ok items) :
    n.toHost = .ok ⟨n.shape, .ints items⟩ := by
  have hbool : n.element ≠ .bool := fun hbool => by
    simp [hbool, ScalarKind.isInteger, ScalarKind.isSigned, ScalarKind.isUnsigned] at hinteger
  simp [toHost, hbool, ScalarKind.isFloat_of_isInteger hinteger, h, bind, Except.bind, pure,
    Except.pure, Functor.map, Except.map]

/-- An array of truth values is read as such. -/
theorem toHost_of_bools (hbool : n.element = .bool) {items : List Bool}
    (h : n.layout.move .rowMajor n.shape n.data = items.map .bool) :
    n.toHost = .ok ⟨n.shape, .bools items⟩ := by
  simp [toHost, hbool, h, bind, Except.bind, pure, Except.pure, Function.comp_def]

end NativeArray

namespace ArrayType

variable {a : ArrayType}

/-- The elements of a buffer come back in their order. -/
theorem values_of_elements {buffer : HostBuffer} {data : List NativeScalar} {n : NativeArray}
    (hn : n.element = a.element) (hrows : n.layout.move .rowMajor n.shape n.data = data)
    (h : a.elements buffer = .ok data) :
    ∃ back : HostBuffer, n.toHost = .ok ⟨n.shape, back⟩ ∧
      back.values = buffer.values.map a.element.kept := by
  -- What becomes of elements that a floating-point kind holds, integers or numbers.
  have hnumbers : ∀ {α : Type} {f : α → Except ConversionFault NativeScalar} {g : α → Float}
      {items : List α}, a.element.isFloat = true → items.mapM f = .ok data →
      (∀ x y, f x = .ok y → y = .float a.element (g x)) →
      n.toHost = .ok ⟨n.shape, .floats (items.map g)⟩ := by
    intro α f g items hfloat hdata hf
    rw [NativeArray.toHost_of_isFloat (hn ▸ hfloat), hrows]
    rw [map_eq_map_of_forall₂ (fun x y hxy => ?_) (mapM_eq_ok.1 hdata)]
    rw [hf x y hxy, NativeScalar.toFloat]
  cases buffer with
  | bools items =>
    obtain ⟨hbool, rfl⟩ : a.element = .bool ∧ items.map NativeScalar.bool = data := by
      unfold elements at h
      grind
    exact ⟨.bools items, NativeArray.toHost_of_bools (hn.trans hbool) hrows,
      by simp [HostBuffer.values, ScalarKind.kept]⟩
  | ints items =>
    by_cases hinteger : a.element.isInteger = true
    · have hdata : items.mapM (fun i => a.element.ofInteger i.toInt) = .ok data := by
        simpa [elements, hinteger] using h
      have hitems : data.mapM NativeScalar.toHostInt = .ok items :=
        mapM_eq_ok.2 ((mapM_eq_ok.1 hdata).imp fun _ _ => ScalarKind.toHostInt_of_ofInteger).flip
      exact ⟨.ints items, NativeArray.toHost_of_isInteger (hn ▸ hinteger) (hrows ▸ hitems),
        by simp [HostBuffer.values, ScalarKind.kept, ScalarKind.isFloat_of_isInteger hinteger]⟩
    · obtain ⟨hfloat, hdata⟩ : a.element.isFloat = true ∧
          items.mapM a.element.ofExactInteger = .ok data := by
        unfold elements at h
        grind
      exact ⟨_, hnumbers hfloat hdata fun _ _ => ScalarKind.ofExactInteger_eq_ok,
        by simp [HostBuffer.values, ScalarKind.kept, hfloat]⟩
  | floats items =>
    obtain ⟨hfloat, hdata⟩ : a.element.isFloat = true ∧
        items.mapM a.element.ofFloat = .ok data := by
      unfold elements at h
      grind
    exact ⟨_, hnumbers hfloat hdata fun _ _ => ScalarKind.ofFloat_eq_ok,
      by simp [HostBuffer.values, ScalarKind.kept]⟩

/-- **An array comes back** in its shape, with what its kind holds of each element at the same
multi-index. -/
theorem toHost_of_ofHost {h : HostArray} {n : NativeArray} (hn : a.ofHost h = .ok n) :
    ∃ back, n.toHost = .ok back ∧ back.shape = h.shape ∧
      ∀ index, back.at? index = (h.at? index).map a.element.kept := by
  obtain ⟨data, layout, hdata, rfl⟩ : ∃ data layout, a.elements h.buffer = .ok data ∧
      n = ⟨a.element, h.shape, layout, Layout.rowMajor.move layout h.shape data⟩ := by
    unfold ofHost at hn
    split at hn
    · rcases hdata : a.elements h.buffer with e | data
      · simp [hdata, bind, Except.bind] at hn
      · exact ⟨data, _, rfl, by simpa [hdata, bind, Except.bind, pure, Except.pure] using hn.symm⟩
    · simp [throw, throwThe, MonadExceptOf.throw] at hn
  have hrows := Layout.move_move .rowMajor layout h.shape data
  obtain ⟨back, hback, hvalues⟩ := values_of_elements (n := ⟨a.element, h.shape, layout, _⟩) rfl
    hrows hdata
  refine ⟨_, hback, rfl, fun index => ?_⟩
  by_cases hin : inShape h.shape index = true
  · simp [HostArray.at?, hin, hvalues]
  · simp [HostArray.at?, hin]

end ArrayType

/-! ## Values -/

namespace NativeType

/-- What a type holds of a host value that is no array: numbers as its kind holds them, and
everything else as it is. -/
def kept : NativeType → HostValue → HostValue
  | scalar kind, v => kind.kept v
  | _, v => v

/-- The value `r` is what comes back of the value `v` that was written to a field of the type.
An array comes back in its shape, with what the kind holds of each element at the same
multi-index. A handle comes back that reaches the same object if that still has an owner after
the write. -/
def GivesBack (type : NativeType) (before written read : Store) (v r : HostValue) : Prop :=
  match v with
  | .array a => ∃ elementType b, type = .array elementType ∧ r = .array b ∧ b.shape = a.shape ∧
      ∀ index, b.at? index = (a.at? index).map elementType.element.kept
  | .object g => ∃ k, r = .object k ∧ ∀ i, before.reach? g = some i →
      written.hasOwner i = true → read.reach? k = some i
  | v => r = type.kept v

variable {type : NativeType} {isSubclass : String → String → Bool} {v : HostValue}
  {n : NativeValue} {s t : Store}

theorem handleToNative_eq_ok {className : String} {ownership : Ownership} {g : Handle}
    (h : handleToNative className ownership g s = .ok (n, t)) :
    ∃ k, n = .object k ∧ s.Takes g k t := by
  cases ownership with
  | ownedByWrapper =>
    obtain ⟨rfl, rfl⟩ : .object g = n ∧ s = t := by simpa [handleToNative] using h
    exact ⟨g, rfl, .same⟩
  | borrowed =>
    obtain ⟨rfl, rfl⟩ : .object (s.borrow g).1 = n ∧ (s.borrow g).2 = t := by
      simpa [handleToNative] using h
    exact ⟨_, rfl, .borrowed⟩
  | shared =>
    rcases hshare : s.share g with e | ⟨k, u⟩
    · simp [handleToNative, hshare] at h
    · obtain ⟨rfl, rfl⟩ : .object k = n ∧ u = t := by simpa [handleToNative, hshare] using h
      exact ⟨k, rfl, .shared hshare⟩

/-- What becomes of a host value on the native side: an object comes with its handle, and
everything else comes back without any use of the store. -/
theorem toNative_eq_ok (h : type.toNative isSubclass v s = .ok (n, t)) :
    (∃ g k className ownership, v = .object g ∧ n = .object k ∧ type = .object className ownership ∧
      s.Takes g k t) ∨
    t = s ∧ ∃ r, (∀ u, type.toHost n u = .ok (r, u)) ∧
      ∀ before written read, type.GivesBack before written read v r := by
  cases type with
  | void => simp [toNative] at h
  | hostObject => simp [toNative] at h
  | scalar kind =>
    obtain ⟨y, hy, rfl, rfl⟩ : ∃ y, kind.ofHost v = .ok y ∧ t = s ∧ .scalar y = n := by
      rcases hy : kind.ofHost v with e | y
      · simp [toNative, hy, Except.map] at h
      · have hresult : NativeValue.scalar y = n ∧ s = t := by
          simpa [toNative, hy, Except.map] using h
        exact ⟨y, rfl, hresult.2.symm, hresult.1⟩
    refine .inr ⟨rfl, kind.kept v, fun u => ?_, fun _ _ _ => ?_⟩
    · simp [toHost, ScalarKind.toHost_of_ofHost hy, Except.map]
    · cases v <;> simp [ScalarKind.ofHost, GivesBack, kept] at hy ⊢
  | text isPointer =>
    obtain ⟨x, rfl, rfl, rfl⟩ : ∃ x, v = .str x ∧ t = s ∧ .str x = n := by
      cases v <;> simp_all [toNative]
    exact .inr ⟨rfl, .str x, fun _ => rfl, fun _ _ _ => rfl⟩
  | array a =>
    obtain ⟨x, y, rfl, hy, rfl, rfl⟩ :
        ∃ x y, v = .array x ∧ a.ofHost x = .ok y ∧ t = s ∧ .array y = n := by
      cases v <;> simp [toNative] at h
      rename_i x
      rcases hy : a.ofHost x with e | y <;> simp_all [Except.map]
    obtain ⟨b, hb, hshape, hitems⟩ := a.toHost_of_ofHost hy
    refine .inr ⟨rfl, .array b, fun u => ?_, fun _ _ _ => ⟨a, b, rfl, rfl, hshape, hitems⟩⟩
    simp [toHost, hb, Except.map]
  | object className ownership =>
    cases v with
    | nothing =>
      obtain ⟨rfl, rfl⟩ : t = s ∧ .null = n := by
        by_cases hborrowed : ownership = .borrowed <;> simp_all [toNative]
      exact .inr ⟨rfl, .nothing, fun _ => rfl, fun _ _ _ => rfl⟩
    | object g =>
      have hcross : handleToNative className ownership g s = .ok (n, t) := by
        rw [toNative] at h
        split at h
        · exact h
        · simp at h
      obtain ⟨k, rfl, hk⟩ := handleToNative_eq_ok hcross
      exact .inl ⟨g, k, className, ownership, rfl, rfl, rfl, hk⟩
    | bool _ | int _ | float _ | str _ | array _ => simp [toNative] at h

/-- A conversion adds wrappers to the store and does nothing else to it. -/
theorem extends_of_toNative (h : type.toNative isSubclass v s = .ok (n, t)) : s.Extends t := by
  rcases toNative_eq_ok h with ⟨_, _, _, _, -, -, -, htakes⟩ | ⟨rfl, -⟩
  · exact htakes.extended
  · exact .refl _

/-- A handle comes back as it is or as a reference. -/
theorem toHost_object (className : String) (ownership : Ownership) (g : Handle) (s : Store) :
    ∃ k t, (object className ownership).toHost (.object g) s = .ok (.object k, t) ∧
      s.Takes g k t := by
  by_cases hborrowed : ownership = .borrowed
  · exact ⟨_, _, by simp [toHost, hborrowed], .borrowed⟩
  · exact ⟨g, s, by simp [toHost, hborrowed], .same⟩

theorem extends_of_toHost {r : HostValue} (h : type.toHost n s = .ok (r, t)) : s.Extends t := by
  suffices hkeeps : Preserves s.Extends (type.toHost n) from hkeeps (.refl s) h
  unfold toHost
  split
  · exact preserves_pure _
  · exact preserves_liftM _
  · exact preserves_pure _
  · exact preserves_bind (preserves_liftM _) fun _ => preserves_pure _
  · split
    · intro u u' a hu hborrow
      obtain ⟨-, rfl⟩ := Prod.mk.inj (Except.ok.inj hborrow)
      exact hu.trans (.borrow u _)
    · exact preserves_pure _
  · exact preserves_pure _
  · exact preserves_bind preserves_get fun _ => preserves_throw _

end NativeType
end Bindery

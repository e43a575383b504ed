import Bindery.Proofs.Bound.Construct
import Bindery.Proofs.Bound.ReadOnly
import Bindery.Proofs.Session.WriteRead

/-!
# What new objects hold

A new object holds, for each field that is bound, what its default converts to, or the value that
its type has without one. Before anything is written, each of these values can be read, whatever the
type: a literal that was converted comes back, and so does the value of a type, as no array has
characters as elements. The exception is a field for objects of the host that pass through. It holds
nothing, and nothing is no value that passes.

A default in braces is always a list of numbers, which only an array can hold. A field of a scalar
or of text keeps the value of its type, whatever stands in the braces.

## Main definitions

* `NativeType.Reads`: a value can be read as one of a type.
* `ExportedClass.withDefault`: a class with another default for a field.
* `Store.held?`: the value that an object holds under a name.

## Main statements

* `Registry.valueType_ne_char`: no array has characters as elements.
* `BoundField.reads_initial`: what a new object holds can be read.
* `BoundModule.get_unwritten_iff`: the fields of a new object that can be read.
* `BoundClass.held_braced_iff`: what becomes of a default in braces.
-/
namespace Bindery

/-! ## Elements of arrays -/

namespace ArrayType

variable {k : ScalarKind}

theorem elementOf?_ne_char {arg : TemplateArg} (h : elementOf? arg = some k) : k ≠ .char := by
  rintro rfl
  obtain ⟨t, -, h⟩ := Option.bind_eq_some_iff.1 h
  dsimp only at h
  split at h
  · obtain ⟨kind, -, h⟩ := Option.bind_eq_some_iff.1 h
    split at h <;> simp_all
  · split at h
    · obtain ⟨kind, -, h⟩ := Option.bind_eq_some_iff.1 h
      split at h <;> simp_all
    · cases h
  · cases h

/-- The element of nested containers is that of the innermost one. -/
theorem nestedDims?_ne_char {family : String} {outer : List TemplateArg → Option Dim} {depth : ℕ}
    {args : List TemplateArg} {dims : List Dim}
    (h : nestedDims? family outer depth args = some (k, dims)) : k ≠ .char := by
  induction depth generalizing args dims with
  | zero => cases h
  | succ depth ih =>
    obtain ⟨first, -, h⟩ := Option.bind_eq_some_iff.1 h
    have hkeep {element : ScalarKind} {inner : List Dim}
        (h : (outer args).bind (fun dim => some (element, dim :: inner)) = some (k, dims)) :
        element = k := by
      obtain ⟨dim, -, h⟩ := Option.bind_eq_some_iff.1 h
      exact congrArg Prod.fst (Option.some_inj.1 h)
    dsimp only at h
    split at h
    · next helement => exact hkeep h ▸ elementOf?_ne_char helement
    · obtain ⟨t, -, h⟩ := Option.bind_eq_some_iff.1 h
      obtain ⟨segments, -, h⟩ := Option.bind_eq_some_iff.1 h
      split at h
      · obtain ⟨⟨element, inner⟩, hinner, h⟩ := Option.bind_eq_some_iff.1 h
        obtain rfl : element = k := hkeep h
        exact ih hinner
      · cases h

theorem shortElement?_ne_char {cs : List Char} (h : shortElement? cs = some k) : k ≠ .char := by
  rw [shortElement?.eq_def] at h
  split at h <;> cases h <;> decide

theorem ofShortName?_ne_char {path : String} {a : ArrayType} (h : ofShortName? path = some a) :
    a.element ≠ .char := by
  obtain ⟨name, -, h⟩ := Option.bind_eq_some_iff.1 h
  obtain ⟨⟨form, rest⟩, -, h⟩ := Option.bind_eq_some_iff.1 h
  dsimp only at h
  split at h
  · cases h
  · obtain ⟨size, -, h⟩ := Option.bind_eq_some_iff.1 h
    obtain ⟨element, helement, h⟩ := Option.bind_eq_some_iff.1 h
    have hne := shortElement?_ne_char helement
    cases form <;>
      · cases h
        exact hne

/-- No array has characters as elements. -/
theorem ofPath?_ne_char {depth : ℕ} {path : String} {args : List TemplateArg} {a : ArrayType}
    (h : ofPath? depth path args = some a) : a.element ≠ .char := by
  have hnested {outer : List TemplateArg → Option Dim} {f : ScalarKind × List Dim → ArrayType}
      (hf : ∀ e, (f e).element = e.1)
      (h : (nestedDims? path outer depth args).bind (fun e => some (f e)) = some a) :
      a.element ≠ .char := by
    obtain ⟨⟨element, dims⟩, hdims, h⟩ := Option.bind_eq_some_iff.1 h
    rw [← Option.some_inj.1 h, hf]
    exact nestedDims?_ne_char hdims
  have hfirst {f : ScalarKind → Option ArrayType} (hf : ∀ e a, f e = some a → a.element = e)
      (h : (args.head?.bind elementOf?).bind f = some a) : a.element ≠ .char := by
    obtain ⟨element, helement, h⟩ := Option.bind_eq_some_iff.1 h
    obtain ⟨arg, -, helement⟩ := Option.bind_eq_some_iff.1 helement
    rw [hf _ _ h]
    exact elementOf?_ne_char helement
  unfold ofPath? at h
  split at h
  · exact hnested (fun _ => rfl) h
  split at h
  · exact hnested (fun _ => rfl) h
  split at h
  · refine hfirst (fun e a h => ?_) h
    obtain ⟨rows, -, h⟩ := Option.bind_eq_some_iff.1 h
    obtain ⟨cols, -, h⟩ := Option.bind_eq_some_iff.1 h
    cases h
    rfl
  split at h
  · refine hfirst (fun e a h => ?_) h
    obtain ⟨rank, -, h⟩ := Option.bind_eq_some_iff.1 h
    cases h
    rfl
  split at h
  · refine hfirst (fun e a h => ?_) h
    cases h
    rfl
  · exact ofShortName?_ne_char h

end ArrayType

namespace NativeType

variable {isClass : String → Bool} {t : TypeExpr} {a : ArrayType}

theorem objectOf?_ne_array {ownership : Ownership} :
    objectOf? isClass ownership t ≠ some (array a) := by
  intro h
  obtain ⟨spelling, -, h⟩ := Option.bind_eq_some_iff.1 h
  split at h <;> cases h

theorem ofBare?_ne_char (h : ofBare? isClass t = some (array a)) : a.element ≠ .char := by
  rw [ofBare?.eq_def] at h
  split at h
  · cases h
  · obtain ⟨kind, -, h⟩ := Option.map_eq_some_iff.1 h
    cases h
  · dsimp only at h
    split at h
    · cases h
    split at h
    · obtain ⟨pointee, -, h⟩ := Option.bind_eq_some_iff.1 h
      exact absurd h objectOf?_ne_array
    split at h
    · cases h
    split at h
    · cases h
    split at h
    · next harray =>
      cases h
      exact ArrayType.ofPath?_ne_char harray
    · exact absurd h objectOf?_ne_array

theorem classify?_ne_char (h : classify? isClass t = some (array a)) : a.element ≠ .char := by
  rw [classify?] at h
  split at h
  · cases h
  split at h
  · obtain ⟨bare, hbare, hborrow⟩ := Option.map_eq_some_iff.1 h
    cases bare <;> cases hborrow
    exact ofBare?_ne_char hbare
  split at h
  · exact ofBare?_ne_char h
  split at h
  · cases h
  split at h
  · cases h
  · exact absurd h objectOf?_ne_array

end NativeType

theorem Registry.valueType_ne_char {r : Registry} {t : TypeExpr} {a : ArrayType}
    (h : r.valueType t = .ok (.array a)) : a.element ≠ .char := by
  unfold valueType at h
  split at h
  · cases h
  · rw [resultType] at h
    split at h
    · next hclass =>
      cases h
      exact NativeType.classify?_ne_char hclass
    · cases h

/-! ## What can be read -/

theorem Layout.mem_of_mem_move {α : Type} {source target : Layout} {shape : List Nat}
    {data : List α} {x : α} (h : x ∈ source.move target shape data) : x ∈ data := by
  rw [move_eq_gather, gather] at h
  split at h
  · exact h
  · dsimp only at h
    split at h
    · obtain ⟨k, -, hk⟩ := List.mem_filterMap.1 h
      exact List.mem_of_getElem? hk
    · exact h

/-- An array of zeros is read. -/
theorem NativeArray.exists_toHost_zeros {a : ArrayType} (h : a.element ≠ .char) :
    ∃ host, (zeros a).toHost = .ok host := by
  obtain ⟨n, hrows⟩ : ∃ n, (zeros a).layout.move .rowMajor (zeros a).shape (zeros a).data =
      List.replicate n (.zero a.element) :=
    ⟨_, List.eq_replicate_of_mem fun x hx => List.eq_of_mem_replicate (Layout.mem_of_mem_move hx)⟩
  have hkind : a.element = .bool ∨ a.element.isFloat = true ∨ a.element.isInteger = true := by
    cases hkind : a.element <;> first | exact absurd hkind h | decide
  rcases hkind with hbool | hfloat | hinteger
  · have hbools : List.replicate n (NativeScalar.zero a.element) =
        (List.replicate n false).map NativeScalar.bool := by
      rw [hbool, List.map_replicate]
      rfl
    exact ⟨_, toHost_of_bools hbool (hrows.trans hbools)⟩
  · exact ⟨_, toHost_of_isFloat (n := zeros a) hfloat⟩
  · have hzero : (NativeScalar.zero a.element).toHostInt = .ok 0 := by
      cases hkind : a.element <;> first | rfl | (rw [hkind] at hinteger; cases hinteger)
    have hzeros : List.Forall₂ (fun x i => NativeScalar.toHostInt x = .ok i)
        (List.replicate n (NativeScalar.zero a.element)) (List.replicate n 0) := by
      clear hrows
      induction n with
      | zero => exact .nil
      | succ n ih => exact .cons hzero ih
    exact ⟨_, toHost_of_isInteger hinteger (hrows ▸ mapM_eq_ok.2 hzeros)⟩

namespace NativeType

/-- A value of a type can be read, whatever the store. -/
def Reads (type : NativeType) (n : NativeValue) : Prop :=
  ∀ s, ∃ v t, type.toHost n s = .ok (v, t)

variable {type : NativeType} {n : NativeValue}

/-- What was converted to a type can be read. -/
theorem reads_of_toNative {isSubclass : String → String → Bool} {v : HostValue} {s t : Store}
    (h : type.toNative isSubclass v s = .ok (n, t)) : type.Reads n := by
  intro u
  rcases toNative_eq_ok h with ⟨g, k, className, ownership, -, rfl, rfl, -⟩ | ⟨-, r, hr, -⟩
  · obtain ⟨k', u', hread, -⟩ := toHost_object className ownership k u
    exact ⟨_, _, hread⟩
  · exact ⟨r, u, hr u⟩

/-- The value of a member that was not initialised can be read, but for what passes through. -/
theorem reads_initial (hobject : type ≠ .hostObject)
    (harray : ∀ a, type = .array a → a.element ≠ .char) : type.Reads (.initial type) := by
  intro s
  cases type with
  | void => exact ⟨_, _, rfl⟩
  | scalar kind => cases kind <;> exact ⟨_, _, rfl⟩
  | text _ => exact ⟨_, _, rfl⟩
  | array a =>
    obtain ⟨host, hhost⟩ := NativeArray.exists_toHost_zeros (harray a rfl)
    refine ⟨.array host, s, ?_⟩
    simp [toHost, NativeValue.initial, hhost, Except.map]
  | object className ownership => exact ⟨_, _, rfl⟩
  | hostObject => exact absurd rfl hobject

end NativeType

namespace BoundField

variable {r : Registry} {f : Field} {b : BoundField}

/-- A member of a new object can be read, but for what passes through. -/
theorem reads_initial (h : bind r f = .ok b) (hobject : b.type ≠ .hostObject) :
    b.type.Reads b.initial := by
  obtain ⟨type, htype, hb⟩ := bind_eq_ok.1 h
  cases hb
  have hdefault : type.Reads (.initial type) :=
    NativeType.reads_initial hobject fun a ha => Registry.valueType_ne_char (ha ▸ htype)
  show type.Reads (initialValue r type f.default)
  unfold initialValue
  split
  · exact hdefault
  · split
    · next hnative => exact NativeType.reads_of_toNative hnative
    · exact hdefault

/-- What passes through is nothing in a new object, and is not read. -/
theorem toHost_initial (h : bind r f = .ok b) (hobject : b.type = .hostObject) (s : Store) :
    b.type.toHost b.initial s = .error (.typeMismatch "object" "Null") := by
  obtain ⟨type, htype, hb⟩ := bind_eq_ok.1 h
  cases hb
  obtain rfl : type = .hostObject := hobject
  have hnull : initialValue r .hostObject f.default = .null := by
    unfold initialValue
    split
    · rfl
    · rfl
  rw [hnull]
  rfl

end BoundField

/-! ## New objects -/

namespace BoundClass

variable {c : BoundClass} {args : List HostValue} {s t : Store} {h : Handle} {name : String}

theorem construct_eq_ok : c.construct args s = .ok (h, t) ↔
    (∃ i, SignaturePattern.pick c.registry c.exportName constructorName c.constructors args =
      .ok i) ∧ s.adopt .ownedByWrapper c.native c.initialFields none = (h, t) := by
  cases hpick : SignaturePattern.pick c.registry c.exportName constructorName c.constructors
    args <;> simp [construct, hpick, Except.map]

/-- A new object holds the initial values of the fields. -/
theorem cell?_construct (hmade : c.construct args s = .ok (h, t)) :
    t.cell? h = some ⟨c.native, c.initialFields, none, 0⟩ := by
  have hcell := s.cell?_adopt .ownedByWrapper c.native c.initialFields none
  rwa [(construct_eq_ok.1 hmade).2] at hcell

theorem find?_initialFields (c : BoundClass) (name : String) :
    c.initialFields.find? name = (c.fields.find? name).map BoundField.initial :=
  OrderedMap.find?_map_values c.fields BoundField.initial name

/-- A read of a member that was not written finds the initial value. -/
theorem get_of_construct (hmade : c.construct args s = .ok (h, t)) {f : BoundField}
    (hf : c.fields.find? name = some f) {u : Store} (hu : u.cell? h = t.cell? h) :
    c.get h name u = (f.type.toHost f.initial u).mapError .conversion := by
  have hcell := hu.trans (cell?_construct hmade)
  obtain ⟨i, hi, hfound⟩ := Option.bind_eq_some_iff.1 hcell
  refine get_eq hf hi ?_
  rw [Store.field?, hfound, Option.bind_some, find?_initialFields, hf, Option.map_some]

end BoundClass

/-! ### Classes with one member -/

namespace OneMember

/-- A class with one member. -/
def text (member : String) : String := "struct S \x7b\n  " ++ member ++ ";\n\x7d;\n"

/-- What a header with the class exports. -/
def model? (member : String) : Option ExportModel :=
  (Header.load (.ofFiles [("main.h", text member)]) [] "main.h").toOption.bind fun h =>
    ((HeaderUnit.ofHeader h).exportModel .defaultPublic).toOption

/-- What a new object gives for the member. -/
def read (c : BoundClass) : Except AccessFault (HostValue × Store) :=
  StateT.run (do
    let o ← c.construct []
    c.get o "x") {}

/-- The class is made without arguments, and its member is bound with a type. -/
def binds (member : String) (type : NativeType) : Bool :=
  (model? member).any fun m => ((BoundModule.bind "m" m).classes.find? "S").any fun c =>
    (SignaturePattern.pick c.registry c.exportName BoundClass.constructorName c.constructors
      []).toOption.isSome && (c.fields.find? "x").any (·.type = type)

/-- The class has a default, and a new object gives a number for it. -/
def readsAs (member text : String) (i : Int64) : Bool :=
  (model? member).any fun m => m.classes.any fun e => e.fields.map (·.default) = [some text] &&
    (read (.bind (.ofModel m) "S" e)).toOption.bind (·.1.int?) = some i

theorem exists_of_readsAs {member text : String} {i : Int64} (h : readsAs member text i = true) :
    ∃ m e t, model? member = some m ∧ e ∈ m.classes ∧ e.fields.map (·.default) = [some text] ∧
      read (.bind (.ofModel m) "S" e) = .ok (.int i, t) := by
  simp only [readsAs, Option.any_eq_true, List.any_eq_true, Bool.and_eq_true,
    decide_eq_true_eq] at h
  obtain ⟨m, hm, e, he, hdefault, hread⟩ := h
  obtain ⟨⟨v, t⟩, hvalue, hint⟩ := Option.bind_eq_some_iff.1 hread
  refine ⟨m, e, t, hm, he, hdefault, ?_⟩
  rw [toOption_eq_some.1 hvalue]
  cases v <;> cases hint
  rfl

theorem exists_of_binds {member : String} {type : NativeType} (h : binds member type = true) :
    ∃ m c o t f, model? member = some m ∧ (BoundModule.bind "m" m).classes.find? "S" = some c ∧
      c.construct [] {} = .ok (o, t) ∧ c.fields.find? "x" = some f ∧ f.type = type := by
  simp only [binds, Option.any_eq_true, Bool.and_eq_true, decide_eq_true_eq] at h
  obtain ⟨m, hm, c, hc, hpick, f, hf, htype⟩ := h
  obtain ⟨i, hpick⟩ := Option.isSome_iff_exists.1 hpick
  obtain ⟨o, t, -, hmade, -⟩ := c.construct_of_pick (toOption_eq_some.1 hpick) {}
  exact ⟨m, c, o, t, f, hm, hc, hmade, hf, htype⟩

end OneMember

/-! ### Reading them -/

namespace BoundModule

/-- The classes of a module are bound from exported ones. -/
theorem exists_of_find?_classes {m : ExportModel} {name host : String} {c : BoundClass}
    (hc : (bind name m).classes.find? host = some c) :
    ∃ e, c = .bind (Registry.ofModel m) host e := by
  obtain ⟨o, -, hview⟩ := exists_offer_of_find? hc
  obtain ⟨e, -, hbound⟩ := Offer.of_class?_registration hview
  exact ⟨e, hbound⟩

variable {m : ExportModel} {name host field : String} {c : BoundClass} {args : List HostValue}
  {s t u : Store} {h : Handle} {f : BoundField}

/-- A value that passes through is not read before it is written. -/
theorem get_of_hostObject (hc : (bind name m).classes.find? host = some c)
    (hmade : c.construct args s = .ok (h, t)) (hf : c.fields.find? field = some f)
    (hu : u.cell? h = t.cell? h) (hobject : f.type = .hostObject) :
    c.get h field u = .error (.conversion (.typeMismatch "object" "Null")) := by
  obtain ⟨e, rfl⟩ := exists_of_find?_classes hc
  obtain ⟨declared, -, -, hbind⟩ := ExportedClass.exists_of_find?_fields hf
  rw [BoundClass.get_of_construct hmade hf hu, BoundField.toHost_initial hbind hobject]
  rfl

/-- **A new object can be read**: before anything is written, each field that is bound gives a
value, unless its type is that of values which pass through. -/
theorem get_unwritten_iff (hc : (bind name m).classes.find? host = some c)
    (hmade : c.construct args s = .ok (h, t)) (hf : c.fields.find? field = some f)
    (hu : u.cell? h = t.cell? h) :
    ((∃ v u', c.get h field u = .ok (v, u')) ↔ f.type ≠ .hostObject) ∧
    (f.type = .hostObject →
      c.get h field u = .error (.conversion (.typeMismatch "object" "Null"))) := by
  refine ⟨⟨?_, fun hobject => ?_⟩, get_of_hostObject hc hmade hf hu⟩
  · rintro ⟨v, u', hread⟩ hobject
    rw [get_of_hostObject hc hmade hf hu hobject] at hread
    cases hread
  · obtain ⟨e, rfl⟩ := exists_of_find?_classes hc
    obtain ⟨declared, -, -, hbind⟩ := ExportedClass.exists_of_find?_fields hf
    obtain ⟨v, u', hread⟩ := BoundField.reads_initial hbind hobject u
    refine ⟨v, u', ?_⟩
    rw [BoundClass.get_of_construct hmade hf hu, hread]
    rfl

open OneMember in
/-- A number is read as soon as there is an object. -/
theorem get_unwritten_iff_int : ∃ m c o t f, model? "int x = 5" = some m ∧
    (bind "m" m).classes.find? "S" = some c ∧ c.construct [] {} = .ok (o, t) ∧
    c.fields.find? "x" = some f ∧ f.type = .scalar .i32 ∧ ∃ v u, c.get o "x" t = .ok (v, u) := by
  have hbinds : binds "int x = 5" (.scalar .i32) = true := by decide +kernel
  obtain ⟨m, c, o, t, f, hm, hc, hmade, hf, htype⟩ := exists_of_binds hbinds
  refine ⟨m, c, o, t, f, hm, hc, hmade, hf, htype, ?_⟩
  exact (get_unwritten_iff hc hmade hf rfl).1.2 (by rw [htype]; decide)

open OneMember in
/-- An object of the host is not read from a new object. -/
theorem get_unwritten_refused : ∃ m c o t f, model? "py::object x" = some m ∧
    (bind "m" m).classes.find? "S" = some c ∧ c.construct [] {} = .ok (o, t) ∧
    c.fields.find? "x" = some f ∧ f.type = .hostObject ∧
    c.get o "x" t = .error (.conversion (.typeMismatch "object" "Null")) := by
  have hbinds : binds "py::object x" .hostObject = true := by decide +kernel
  obtain ⟨m, c, o, t, f, hm, hc, hmade, hf, htype⟩ := exists_of_binds hbinds
  exact ⟨m, c, o, t, f, hm, hc, hmade, hf, htype, get_of_hostObject hc hmade hf rfl htype⟩

end BoundModule

/-! ## Braces -/

namespace Literal

/-- A text in braces is a list, whatever it is. -/
theorem read_braced (text : String) : read ("\x7b" ++ text ++ "\x7d") = list text.toList := by
  have htrim : Text.trimChars ("\x7b" ++ text ++ "\x7d").toList =
      '\x7b' :: (text.toList ++ ['\x7d']) := by
    have hfront : Text.isBlank '\x7b' = false := by decide
    have hback : Text.isBlank '\x7d' = false := by decide
    simp [Text.trimChars, Text.trimFront, Text.trimBack, hfront, hback]
  have hbetween : between? '\x7b' '\x7d' ('\x7b' :: (text.toList ++ ['\x7d'])) =
      some text.toList := by
    simp [between?]
  rw [read, htrim]
  simp only [hbetween]

theorem exists_array_of_list {cs : List Char} {v : HostValue} (h : (list cs).value? = some v) :
    ∃ a, v = .array a := by
  have hmap (r : Numeral.Reading (List HostValue)) :
      (arrayOf <$> r).value? = r.value?.map arrayOf := by
    rcases r with _ | _ | items <;> rfl
  rw [list] at h
  split at h
  · cases h
  · obtain ⟨items, -, rfl⟩ := Option.map_eq_some_iff.1 ((hmap _).symm.trans h)
    exact ⟨_, rfl⟩

/-- What is read in braces is an array. -/
theorem exists_array_of_read?_braced {text : String} {v : HostValue}
    (h : read? ("\x7b" ++ text ++ "\x7d") = some v) : ∃ a, v = .array a := by
  rw [read?, read_braced] at h
  exact exists_array_of_list h

end Literal

/-- A type whose values are no arrays and no objects. -/
def NativeType.IsPlain (type : NativeType) : Prop :=
  (∃ kind, type = .scalar kind) ∨ ∃ isPointer, type = .text isPointer

namespace BoundField

variable {r : Registry} {type : NativeType}

theorem bind_eq (r : Registry) (f : Field) : bind r f =
    (r.valueType f.type).map fun type => ⟨type, f.isConst, initialValue r type f.default⟩ := by
  rw [bind]
  cases r.valueType f.type <;> rfl

/-- A default in braces does not count where no array is held. -/
theorem initialValue_braced (h : type.IsPlain) (text : String) :
    initialValue r type (some ("\x7b" ++ text ++ "\x7d")) = .initial type := by
  rw [initialValue, Option.bind_some]
  cases hread : Literal.read? ("\x7b" ++ text ++ "\x7d") with
  | none => rfl
  | some v =>
    obtain ⟨a, rfl⟩ := Literal.exists_array_of_read?_braced hread
    rcases h with ⟨kind, rfl⟩ | ⟨isPointer, rfl⟩ <;> rfl

/-- A default leaves the value of the type just if nothing else comes of it. -/
theorem initialValue_eq_initial_iff {text : String} :
    initialValue r type (some text) = .initial type ↔ ∀ v n u, Literal.read? text = some v →
      type.toNative r.isSubclass v {} = .ok (n, u) → n = .initial type := by
  rw [initialValue, Option.bind_some]
  cases hread : Literal.read? text with
  | none => simp
  | some value =>
    simp only [Option.some_inj, StateT.run]
    constructor
    · rintro heq v n u rfl hnative
      rw [hnative] at heq
      exact heq
    · intro hall
      split
      · next hnative => exact hall _ _ _ rfl hnative
      · rfl

end BoundField

/-- The class with a default for the fields of a name. -/
def ExportedClass.withDefault (e : ExportedClass) (name text : String) : ExportedClass :=
  { e with
    fields := e.fields.map fun f => if f.name = name then { f with default := some text } else f }

/-- The value that an object holds under a name. -/
def Store.held? (s : Store) (h : Handle) (name : String) : Option NativeValue :=
  (s.cell? h).bind fun c => c.fields.find? name

namespace BoundClass

variable {r : Registry} {host name text : String} {e : ExportedClass}

/-- A default has a part in the initial value only. -/
theorem find?_fields_withDefault :
    (bind r host (e.withDefault name text)).fields.find? name =
      ((bind r host e).fields.find? name).map fun f =>
        { f with initial := BoundField.initialValue r f.type (some text) } := by
  let pairs (fields : List Field) : List (String × BoundField) :=
    (bound (BoundField.bind r) fields).map fun q => (q.1.name, q.2)
  let change (p : String × BoundField) : String × BoundField :=
    (p.1, if p.1 = name then
      { p.2 with initial := BoundField.initialValue r p.2.type (some text) } else p.2)
  have hpairs : pairs (e.withDefault name text).fields = (pairs e.fields).map change := by
    simp only [pairs, ExportedClass.withDefault, bound, List.filterMap_map, List.map_filterMap]
    refine List.filterMap_congr fun f _ => ?_
    cases htype : r.valueType f.type <;> by_cases hname : f.name = name <;>
      simp [BoundField.bind_eq, htype, hname, change, Except.map, Except.toOption]
  have hkey : (fun p : String × BoundField => decide (p.1 = name)) ∘ change =
      fun p => decide (p.1 = name) := rfl
  change (OrderedMap.ofList (pairs (e.withDefault name text).fields)).find? name =
    ((OrderedMap.ofList (pairs e.fields)).find? name).map _
  rw [hpairs, OrderedMap.find?_ofList, OrderedMap.find?_ofList, ← List.map_reverse, List.find?_map,
    hkey]
  cases hfound : (pairs e.fields).reverse.find? fun p => decide (p.1 = name) with
  | none => rfl
  | some p =>
    have hp : p.1 = name := by simpa using List.find?_some hfound
    simp [change, hp]

/-- Members have no part in what constructs an object. -/
theorem construct_withDefault {args : List HostValue} {s t : Store} {h : Handle}
    (hmade : (bind r host e).construct args s = .ok (h, t)) (name text : String) :
    ∃ u, (bind r host (e.withDefault name text)).construct args s = .ok (h, u) := by
  obtain ⟨hpick, hadopted⟩ := construct_eq_ok.1 hmade
  have hhandle : (s.adopt .ownedByWrapper (bind r host e).native (bind r host e).initialFields
    none).1 = h := congrArg Prod.fst hadopted
  exact ⟨_, construct_eq_ok.2 ⟨hpick, Prod.ext hhandle rfl⟩⟩

/-- **A default in braces does not count** for a field of a scalar or of text. A new object holds
the value of the type, and holds the same without the braces just if nothing else comes of the
default. -/
theorem held_braced_iff {f : BoundField} {args : List HostValue} {s t : Store} {h : Handle}
    (hf : (bind r host e).fields.find? name = some f) (htype : f.type.IsPlain)
    (hmade : (bind r host e).construct args s = .ok (h, t)) (text : String) :
    ∃ t₁ t₂,
      (bind r host (e.withDefault name ("\x7b" ++ text ++ "\x7d"))).construct args s =
        .ok (h, t₁) ∧
      (bind r host (e.withDefault name text)).construct args s = .ok (h, t₂) ∧
      t₁.held? h name = some (.initial f.type) ∧
      t₂.held? h name = some (BoundField.initialValue r f.type (some text)) ∧
      (t₁.held? h name = t₂.held? h name ↔ ∀ v n u, Literal.read? text = some v →
        f.type.toNative r.isSubclass v {} = .ok (n, u) → n = .initial f.type) := by
  have hheld {text : String} {u : Store}
      (hu : (bind r host (e.withDefault name text)).construct args s = .ok (h, u)) :
      u.held? h name = some (BoundField.initialValue r f.type (some text)) := by
    rw [Store.held?, cell?_construct hu, Option.bind_some, find?_initialFields,
      find?_fields_withDefault, hf, Option.map_some, Option.map_some]
  obtain ⟨t₁, hbraced⟩ := construct_withDefault hmade name ("\x7b" ++ text ++ "\x7d")
  obtain ⟨t₂, hplain⟩ := construct_withDefault hmade name text
  refine ⟨t₁, t₂, hbraced, hplain, ?_, hheld hplain, ?_⟩
  · rw [hheld hbraced, BoundField.initialValue_braced htype]
  · rw [hheld hbraced, hheld hplain, BoundField.initialValue_braced htype, Option.some_inj, eq_comm,
      BoundField.initialValue_eq_initial_iff]

open OneMember in
/-- Braces around the default of a number. -/
theorem held_braced_iff_int : ∃ m, ∃ e : ExportedClass, ∃ o t₁ t₂, model? "int x = 5" = some m ∧
    (bind (.ofModel m) "S" (e.withDefault "x" "\x7b5\x7d")).construct [] {} = .ok (o, t₁) ∧
    (bind (.ofModel m) "S" (e.withDefault "x" "5")).construct [] {} = .ok (o, t₂) ∧
    t₁.held? o "x" = some (.scalar (.signed .i32 0)) ∧
    t₂.held? o "x" = some (.scalar (.signed .i32 5)) := by
  have hbinds : binds "int x = 5" (.scalar .i32) = true := by decide +kernel
  obtain ⟨m, c, o, t, f, hm, hc, hmade, hf, htype⟩ := exists_of_binds hbinds
  obtain ⟨e, rfl⟩ := BoundModule.exists_of_find?_classes hc
  obtain ⟨t₁, t₂, hbraced, hplain, hinitial, hvalue, -⟩ :=
    held_braced_iff hf (.inl ⟨.i32, htype⟩) hmade "5"
  refine ⟨m, e, o, t₁, t₂, hm, hbraced, hplain, by rw [hinitial, htype]; rfl, ?_⟩
  rw [hvalue, htype]
  rfl

open OneMember in
/-- The default of a number is lost in braces. -/
theorem braced_default_lost :
    (∃ m e t, model? "int x\x7b5\x7d" = some m ∧ e ∈ m.classes ∧
      e.fields.map (·.default) = [some "\x7b5\x7d"] ∧
      read (.bind (.ofModel m) "S" e) = .ok (.int 0, t)) ∧
    ∃ m e t, model? "int x = 5" = some m ∧ e ∈ m.classes ∧
      e.fields.map (·.default) = [some "5"] ∧
      read (.bind (.ofModel m) "S" e) = .ok (.int 5, t) := by
  have hbraced : readsAs "int x\x7b5\x7d" "\x7b5\x7d" 0 = true := by decide +kernel
  have hplain : readsAs "int x = 5" "5" 5 = true := by decide +kernel
  exact ⟨exists_of_readsAs hbraced, exists_of_readsAs hplain⟩

end BoundClass

end Bindery

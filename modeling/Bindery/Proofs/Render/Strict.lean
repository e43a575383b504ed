import Bindery.Proofs.Render.Emission
import Bindery.Render.Module

/-!
# Strict and lenient modules

A lenient module leaves out what cannot cross the boundary and says so. A strict one is the same
module as long as nothing is left out, and fails at what the lenient one leaves out first.

## Main statements

* `ModuleSpec.render_eq`: a module by the parts of its model.
* `ModuleSpec.render_strict`: a strict module beside the lenient one.
-/
namespace Bindery

namespace ModuleSpec

variable {spec : ModuleSpec} {m : ExportModel}

/-- The lines in front of the body of a module, behind the banner. -/
def frontLines (spec : ModuleSpec) (m : ExportModel) (skipped : List Omission) : List String :=
  let families := (m.parts spec.name).flatMap Part.families
  spec.headLines m families ++ supportLines families ++ skipLines skipped

/-- What a lenient module leaves out. -/
def lenientOmissions (spec : ModuleSpec) (m : ExportModel) : List Omission :=
  (m.parts spec.name).filterMap Part.omission?

/-- The lines of a lenient module. -/
def lenientLines (spec : ModuleSpec) (m : ExportModel) : List SourceLine :=
  (spec.bannerLines ++ spec.frontLines m (spec.lenientOmissions m)).map SourceLine.flat ++
    (m.parts spec.name).flatMap Part.lines

/-- A run comes to all parts of the model, or in a strict module to the first omission. -/
theorem render_eq (spec : ModuleSpec) (m : ExportModel) : spec.render m =
    match spec.strict, spec.lenientOmissions m with
    | true, first :: _ => .error first
    | _, _ => .ok (spec.assemble m (({} : Emitted).extend (m.parts spec.name))) := by
  have hbody := Emitter.emits_ofModel m spec.strict spec.name {}
  rw [render, StateT.run, hbody, lenientOmissions]
  cases spec.strict with
  | false => rfl
  | true => cases (m.parts spec.name).filterMap Part.omission? <;> rfl

theorem assemble_extend (spec : ModuleSpec) (m : ExportModel) :
    spec.assemble m (({} : Emitted).extend (m.parts spec.name)) =
      ⟨SourceLine.source (spec.lenientLines m), spec.lenientOmissions m⟩ := by
  have hnested : SourceLine.nested 0 = id := rfl
  simp [assemble, lenientLines, frontLines, lenientOmissions, Emitted.extend, Emitted.write,
    hnested]

/-- A lenient module is always there. -/
theorem render_lenient (h : spec.strict = false) (m : ExportModel) :
    spec.render m = .ok ⟨SourceLine.source (spec.lenientLines m), spec.lenientOmissions m⟩ := by
  rw [render_eq, h, assemble_extend]

/-- **A strict module is the lenient one**, if that leaves nothing out; if it does, the strict
module fails at what the lenient one leaves out first. -/
theorem render_strict (spec : ModuleSpec) (m : ExportModel) :
    ∃ lenient, { spec with strict := false }.render m = .ok lenient ∧
      { spec with strict := true }.render m =
        match lenient.skipped with
        | [] => .ok lenient
        | first :: _ => .error first := by
  refine ⟨_, render_lenient rfl m, ?_⟩
  have homissions : lenientOmissions { spec with strict := true } m =
      lenientOmissions { spec with strict := false } m := rfl
  rw [render_eq, assemble_extend, homissions]
  cases lenientOmissions { spec with strict := false } m <;> rfl

end ModuleSpec
end Bindery

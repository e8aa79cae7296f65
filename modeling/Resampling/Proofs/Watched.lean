import Resampling.Proofs.Alike
import Resampling.Stack

-- Stages with probes under them. They answer as they would without, and the probes tell what
-- they have asked for.

namespace Resampling

variable {β σ τ : Type}

def Resampler.watched (stage : Resampler σ) : Resampler (Probe σ) :=
  stage.withSource (Probe.around stage.source [])

-- A source of type `β` under `depth` stages, each with a probe right under it
def Watched (β : Type) : Nat → Type
  | 0 => β
  | depth + 1 => Resampler (Probe (Watched β depth))

instance Watched.pixelSource [ImageSource β] : (depth : Nat) → ImageSource (Watched β depth)
  | 0 => inferInstanceAs (ImageSource β)
  | depth + 1 =>
    letI := pixelSource depth
    inferInstanceAs (ImageSource (Resampler (Probe (Watched β depth))))

def Layered.watched : {depth : Nat} → Layered β depth → Watched β depth
  | 0, source => source
  | _ + 1, stage => Resampler.withSource stage (Probe.around (watched (Resampler.source stage)) [])

namespace Watched

-- The same stack but for the probes, none of which has a schedule
def Alike : {depth : Nat} → Watched β depth → Layered β depth → Prop
  | 0, source, other => source = other
  | _ + 1, stage, other => Resampler.Alike (Probe.Alike Alike) stage other

theorem alike_watched {depth : Nat} (stack : Layered β depth) : Alike stack.watched stack := by
  induction depth with
  | zero => rfl
  | succ depth ih => exact ⟨⟨rfl, ih (Resampler.source stack)⟩, rfl⟩

-- The probes change no answer
theorem alike [ImageSource β] (depth : Nat) :
    ImageSource.Alike (Alike : Watched β depth → Layered β depth → Prop) := by
  induction depth with
  | zero => exact ImageSource.alike_eq
  | succ depth ih => exact Resampler.alike (Probe.alike ih)

end Watched

end Resampling

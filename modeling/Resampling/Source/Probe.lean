import Resampling.Source.Basic

namespace Resampling

-- A source that fails on schedule and records what it is asked for. A request whose top row is
-- scheduled uses up the first such entry and fails before the wrapped source sees it.
structure Probe (σ : Type) where
  inner : σ
  schedule : List Nat
  requests : List Request

namespace Probe

variable {σ : Type}

def reason : String := "decoder hiccup"

def around (inner : σ) (schedule : List Nat) : Probe σ :=
  { inner := inner, schedule := schedule, requests := [] }

-- The same probe with its record emptied
def forget (probe : Probe σ) : Probe σ := { probe with requests := [] }

instance [ImageSource σ] : ImageSource (Probe σ) where
  width probe := ImageSource.width probe.inner
  height probe := ImageSource.height probe.inner
  format probe := ImageSource.format probe.inner
  copyRect probe rect stride length buffer :=
    if rect.y ∈ probe.schedule then
      .fail { probe with schedule := probe.schedule.erase rect.y } buffer (.sourceFailed reason)
    else
      (ImageSource.copyRect probe.inner rect stride buffer).mapSource fun inner =>
        { probe with inner := inner, requests := probe.requests ++ [⟨rect, stride, length⟩] }
  leases probe := ImageSource.leases probe.inner

end Probe

end Resampling

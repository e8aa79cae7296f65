import Resampling.Proofs.Alike

-- Journals. A source may keep a journal of what it is asked and what comes of it; it answers as it
-- would without. So a stage has a journal of its pulls for every request it answers.

namespace Resampling

structure Journal (σ : Type) where
  inner : σ
  entries : List (Request × Except Error Unit)

namespace Journal

variable {σ τ : Type}

def around (inner : σ) : Journal σ := { inner := inner, entries := [] }

variable [ImageSource σ]

instance : ImageSource (Journal σ) where
  width journal := ImageSource.width journal.inner
  height journal := ImageSource.height journal.inner
  format journal := ImageSource.format journal.inner
  copyRect journal rect stride length buffer :=
    let outcome := ImageSource.copyRect journal.inner rect stride buffer
    outcome.mapSource fun inner =>
      { inner := inner
        entries := journal.entries ++ [(⟨rect, stride, length⟩, outcome.result)] }
  leases journal := ImageSource.leases journal.inner

theorem answer_eq (journal : Journal σ) (call : Call) :
    ImageSource.answer journal call = (ImageSource.answer journal.inner call).mapSource fun inner =>
      { inner := inner
        entries := journal.entries ++
          [(call.request, (ImageSource.answer journal.inner call).result)] } := rfl

-- A journal kept by a source that is related
def Alike (R : σ → τ → Prop) (journal : Journal σ) (source : τ) : Prop := R journal.inner source

theorem alike [ImageSource τ] {R : σ → τ → Prop} (halike : ImageSource.Alike R) :
    ImageSource.Alike (Alike R) where
  width_eq journal source h := halike.width_eq journal.inner source h
  height_eq journal source h := halike.height_eq journal.inner source h
  format_eq journal source h := halike.format_eq journal.inner source h
  answer journal source h call := by
    have hanswer := halike.answer journal.inner source h call
    rw [answer_eq]
    exact ⟨hanswer.source, hanswer.state_eq, hanswer.result_eq, hanswer.events_eq⟩

end Journal

namespace Resampler

variable {σ : Type}

def journaled (stage : Resampler σ) : Resampler (Journal σ) :=
  stage.withSource (Journal.around stage.source)

variable [ImageSource σ]

-- What a stage asks of its source to answer a request, and what comes of it
def journal (stage : Resampler σ) (call : Call) : List (Request × Except Error Unit) :=
  (ImageSource.answer stage.journaled call).source.source.entries

-- Keeping the journal changes nothing about the answer
theorem alike_journaled (stage : Resampler σ) (call : Call) :
    (ImageSource.answer stage.journaled call).Alike (Alike (Journal.Alike Eq))
      (ImageSource.answer stage call) :=
  (Resampler.alike (Journal.alike ImageSource.alike_eq)).answer stage.journaled stage
    ⟨rfl, rfl⟩ call

end Resampler

end Resampling

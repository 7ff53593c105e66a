import CalcImage.Proofs.Alarm.Records
import CalcImage.Proofs.Memory.Edit
import CalcImage.Report
import CalcImage.Transcription.Basic

/-!
# Operations only add records

What an operation comes to does not depend on the records written before it, and it adds its own after them
(`Traced.OnlyAdds`, `Edit.OnlyAdds`). The parts that operations are made of are such, and so is what is made of them one
after the other. So an operation that takes part in a run has the result that it has by itself (`Traced.OnlyAdds.on_eq`).
-/

namespace CalcImage

namespace Traced

variable {α β : Type}

/-- Whatever was recorded before, the operation has the same result, and adds the same records. -/
def OnlyAdds (t : Traced α) : Prop := ∃ r added, ∀ log, t.on log = (r, log ++ added)

theorem onlyAdds_pure (a : α) : (pure a : Traced α).OnlyAdds := by
  refine ⟨.ok a, [], ?_⟩
  intro log
  rw [on_pure, List.append_nil]

theorem onlyAdds_lift (e : Except Fault α) : (liftM e : Traced α).OnlyAdds := by
  refine ⟨e, [], ?_⟩
  intro log
  rw [on_lift, List.append_nil]

theorem onlyAdds_throw (f : Fault) : (throw f : Traced α).OnlyAdds := onlyAdds_lift (.error f)

theorem onlyAdds_record (level : Log.Level) (source : Log.Source) (text : String) :
    (record level source text).OnlyAdds :=
  ⟨.ok (), [⟨level, source, text⟩], fun _ => on_record level source text⟩

theorem OnlyAdds.bind {x : Traced α} {g : α → Traced β} (first : x.OnlyAdds) (onward : ∀ a, (g a).OnlyAdds) :
    (x >>= g).OnlyAdds := by
  obtain ⟨r, added, ran⟩ := first
  cases r with
  | error f => exact ⟨.error f, added, fun log => on_bind_of_error (ran log)⟩
  | ok a =>
    obtain ⟨r', added', ran'⟩ := onward a
    refine ⟨r', added ++ added', ?_⟩
    intro log
    rw [on_bind_of_ok (ran log), ran', List.append_assoc]

/-- In a run the operation has the outcome that it has by itself. -/
theorem OnlyAdds.on_eq {t : Traced α} (adds : t.OnlyAdds) (log : List Log.Record) :
    t.on log = (t.outcome.1, log ++ t.outcome.2) := by
  obtain ⟨r, added, ran⟩ := adds
  rw [outcome_eq, ran log, ran [], List.nil_append]

end Traced

namespace Edit

variable {α β : Type}

/-- Whatever was recorded before, the edit has the same result and leaves the same image, and adds the same records. -/
def OnlyAdds (x : Edit α) : Prop := ∀ img, ∃ r img' added, ∀ log, x.on ⟨img, log⟩ = (r, ⟨img', log ++ added⟩)

theorem onlyAdds_pure (a : α) : (pure a : Edit α).OnlyAdds := by
  intro img
  refine ⟨.ok a, img, [], ?_⟩
  intro log
  rw [on_pure, List.append_nil]

theorem onlyAdds_ofExcept (e : Except Fault α) : (ofExcept e).OnlyAdds := by
  intro img
  refine ⟨e, img, [], ?_⟩
  intro log
  rw [on_ofExcept, List.append_nil]

theorem onlyAdds_throw (f : Fault) : (throw f : Edit α).OnlyAdds := onlyAdds_ofExcept (.error f)

/-- After a fault nothing is done any more. -/
theorem onlyAdds_throw_bind (f : Fault) (g : α → Edit β) : (throw f >>= g).OnlyAdds := onlyAdds_throw f

theorem onlyAdds_image : image.OnlyAdds := by
  intro img
  refine ⟨.ok img, img, [], ?_⟩
  intro log
  rw [on_image, List.append_nil]

theorem onlyAdds_record (level : Log.Level) (source : Log.Source) (text : String) :
    (record level source text).OnlyAdds := by
  intro img
  exact ⟨.ok (), img, [⟨level, source, text⟩], fun log => on_record level source text ⟨img, log⟩⟩

/-- A change of the image adds no record. -/
theorem onlyAdds_modify (change : Image → Image) :
    (modifyThe Desk fun d => { d with image := change d.image } : Edit Unit).OnlyAdds := by
  intro img
  refine ⟨.ok (), change img, [], ?_⟩
  intro log
  rw [List.append_nil]
  rfl

theorem OnlyAdds.bind {x : Edit α} {g : α → Edit β} (first : x.OnlyAdds) (onward : ∀ a, (g a).OnlyAdds) :
    (x >>= g).OnlyAdds := by
  intro img
  obtain ⟨r, img', added, ran⟩ := first img
  cases r with
  | error f => exact ⟨.error f, img', added, fun log => on_bind_of_error (ran log)⟩
  | ok a =>
    obtain ⟨r', img'', added', ran'⟩ := onward a img'
    refine ⟨r', img'', added ++ added', ?_⟩
    intro log
    rw [on_bind_of_ok (ran log), ran', List.append_assoc]

/-- In a run the edit has the result, and leaves the image, that it has by itself. -/
theorem OnlyAdds.on_eq {x : Edit α} (adds : x.OnlyAdds) (img : Image) (log : List Log.Record) :
    x.on ⟨img, log⟩ = ((x.on ⟨img, []⟩).1, ⟨(x.on ⟨img, []⟩).2.image, log ++ (x.on ⟨img, []⟩).2.log⟩) := by
  obtain ⟨r, img', added, ran⟩ := adds img
  rw [ran log, ran [], List.nil_append]

theorem onlyAdds_setByte (loc value : Int) : (setByte loc value).OnlyAdds := by
  refine (onlyAdds_ofExcept _).bind fun place => ?_
  split
  · exact onlyAdds_modify fun img => img.put place (UInt8.ofNat value.toNat)
  · exact onlyAdds_throw _

theorem onlyAdds_setLimit (limit : Int) : (setLimit limit).OnlyAdds := by
  unfold setLimit
  split
  · exact onlyAdds_modify fun img => img.withLimit limit.toNat
  · exact onlyAdds_throw _

theorem onlyAdds_writeThrough (loc : Int) (bs : List UInt8) : (writeThrough loc bs).OnlyAdds := by
  induction bs generalizing loc with
  | nil => exact onlyAdds_pure loc
  | cons b bs ih => exact (onlyAdds_setByte loc _).bind fun _ => (onlyAdds_ofExcept _).bind fun following => ih following

theorem onlyAdds_writeRun (loc : Int) (bs : List UInt8) : (writeRun loc bs).OnlyAdds := by
  fun_induction writeRun loc bs with
  | case1 => exact onlyAdds_pure ()
  | case2 loc b => exact onlyAdds_setByte loc _
  | case3 loc b bs more ih => exact (onlyAdds_setByte loc _).bind fun _ => (onlyAdds_ofExcept _).bind ih

theorem onlyAdds_append (limit : Nat) (bs : List UInt8) : (append limit bs).OnlyAdds := by
  refine (onlyAdds_writeThrough _ bs).bind fun written => ?_
  refine (onlyAdds_writeThrough written _).bind fun pointer => ?_
  refine (onlyAdds_writeRun pointer _).bind fun _ => ?_
  exact (onlyAdds_setLimit _).bind fun _ => onlyAdds_pure _

theorem onlyAdds_judge (payload : Payload) : (judge payload).OnlyAdds := by
  refine (onlyAdds_ofExcept _).bind fun bs => ?_
  dsimp only
  split
  · exact onlyAdds_throw_bind _ _
  · refine onlyAdds_image.bind fun img => ?_
    refine (onlyAdds_ofExcept _).bind fun bottom => ?_
    refine (onlyAdds_record _ _ _).bind fun _ => ?_
    refine (onlyAdds_record _ _ _).bind fun _ => ?_
    split
    · exact onlyAdds_throw_bind _ _
    · refine (onlyAdds_ofExcept _).bind fun old => ?_
      exact (onlyAdds_record _ _ _).bind fun _ => onlyAdds_pure _

theorem onlyAdds_inject (payload : Payload) : (inject payload).OnlyAdds := by
  refine (onlyAdds_judge payload).bind ?_
  rintro ⟨bs, free⟩
  refine onlyAdds_image.bind fun img => ?_
  refine (onlyAdds_append _ bs).bind fun newLimit => ?_
  refine onlyAdds_image.bind fun img' => ?_
  refine (onlyAdds_ofExcept _).bind fun newBottom => ?_
  refine (onlyAdds_record _ _ _).bind fun _ => ?_
  exact (onlyAdds_record _ _ _).bind fun _ => onlyAdds_pure _

end Edit

namespace Image

open Traced

theorem onlyAdds_checkWatchdog (img : Image) : img.checkWatchdog.OnlyAdds := by
  unfold checkWatchdog
  split
  · exact onlyAdds_pure _
  · exact (onlyAdds_record _ _ _).bind fun _ => onlyAdds_pure _

theorem onlyAdds_readRecords (img : Image) (tz : Int) (index stop : Nat) (found : List Alarm) :
    (Alarm.readRecords img tz index stop found).OnlyAdds := by
  -- Each record is at least one register long, so what is left of the partition becomes shorter.
  induction left : stop - index using Nat.strongRecOn generalizing index found with
  | _ left ih =>
    rw [Alarm.readRecords]
    split
    case isTrue below =>
      refine (onlyAdds_lift _).bind fun r => ?_
      split
      · exact (onlyAdds_record _ _ _).bind fun _ => onlyAdds_pure _
      · have pos := r.span_pos
        refine (onlyAdds_lift _).bind fun interval => ?_
        refine (onlyAdds_lift _).bind fun name => ?_
        exact ih _ (by omega) _ _ rfl
    case isFalse => exact onlyAdds_pure _

theorem onlyAdds_alarms (img : Image) (tz : Int) : (img.alarms tz).OnlyAdds := by
  refine (onlyAdds_lift _).bind fun p? => ?_
  cases p? with
  | none => exact onlyAdds_pure _
  | some p => exact onlyAdds_readRecords img tz _ _ _

theorem onlyAdds_alarmsWithoutOffset (img : Image) : img.alarmsWithoutOffset.OnlyAdds := by
  refine (onlyAdds_lift _).bind fun p? => ?_
  cases p? with
  | none => exact onlyAdds_pure _
  | some p =>
    dsimp only
    split
    · refine (onlyAdds_lift _).bind fun _ => ?_
      exact (onlyAdds_throw _).bind fun _ => onlyAdds_pure _
    · exact onlyAdds_pure _

theorem onlyAdds_listing (img : Image) (name : String) : (img.listing name).OnlyAdds := by
  refine (onlyAdds_lift _).bind fun found? => ?_
  cases found? with
  | none => exact (onlyAdds_record _ _ _).bind fun _ => onlyAdds_pure _
  | some found =>
    refine (onlyAdds_lift _).bind fun is => ?_
    exact (onlyAdds_record _ _ _).bind fun _ => onlyAdds_pure _

end Image

theorem Summary.onlyAdds_ofAlarms (img : Image) {found : Traced (List Alarm)} (adds : found.OnlyAdds) :
    (ofAlarms img found).OnlyAdds := by
  refine (Traced.onlyAdds_lift _).bind fun catalog => ?_
  refine adds.bind fun alarms => ?_
  exact (Traced.onlyAdds_lift _).bind fun bottom => Traced.onlyAdds_pure _

theorem Report.onlyAdds_program (img : Image) (name : String) : (program img name).OnlyAdds := by
  refine (img.onlyAdds_listing name).bind fun listing? => ?_
  cases listing? with
  | none => exact Traced.onlyAdds_pure _
  | some listing => exact Traced.onlyAdds_pure _

namespace Transcription

open Traced

theorem onlyAdds_format (img : Image) : (format img).OnlyAdds := by
  refine OnlyAdds.bind ?_ fun _ => onlyAdds_pure _
  exact img.onlyAdds_checkWatchdog.bind fun _ => onlyAdds_pure _

theorem onlyAdds_finish (d : Draft) : d.finish.OnlyAdds := by
  refine (onlyAdds_lift _).bind fun img => ?_
  refine OnlyAdds.bind ?_ fun _ => onlyAdds_pure _
  exact img.onlyAdds_checkWatchdog.bind fun _ => onlyAdds_pure _

theorem onlyAdds_load (path : String) (bytes : List UInt8) : (load path bytes).OnlyAdds := by
  refine (onlyAdds_record _ _ _).bind fun _ => ?_
  refine (onlyAdds_lift _).bind fun d => ?_
  split
  · exact onlyAdds_finish d
  · exact onlyAdds_throw _

end Transcription

end CalcImage

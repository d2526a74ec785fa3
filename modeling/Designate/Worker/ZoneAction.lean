import Designate.Central.ZoneCallbacks

/-!
# The worker's zone and view actions

`ZoneAction.__call__` looks the view up before its `try` block; inside it come the
device call, the mirror tables and the status, and whatever raises there reports
`ERROR` and is raised again. `ViewAction.__call__` only calls the device.
-/

namespace Designate

namespace Device

/-- The view goes with every zone in it. -/
def deleteView (view : String) : Call Unit :=
  Exec.modify fun w => { w with device := { w.device with
    zones := w.device.zones.filter fun z => z.1 ≠ view
    rrs := w.device.rrs.filter fun rr => rr.view ≠ view
    changes := w.device.changes + 1 } }

end Device

/-- The name of the view a zone is in. -/
def zoneViewName (ctx : Context) (fails : Bool) (zone : Zone) : Call String :=
  match zone.viewId with
  | none => pure "default"
  | some id => do
    mayFail fails
    let view ← getView ctx (some id)
    pure view.name

/-- The `try` block of `ZoneAction.__call__`. -/
def zoneActionBody (ctx : Context) (conf : Conf) (faults : ZoneFaults) (zone : Zone)
    (action : Action) (viewName : String) : Call Unit := do
  match action with
  | .CREATE =>
    Exec.raiseIf (faults.sites .device) .ZdnsErrMessage
    Device.createZone viewName zone.name
    createZdnsZone faults.sites zone.id
  | .UPDATE =>
    Exec.raiseIf (faults.sites .device) .ZdnsErrMessage
    Device.updateZone viewName zone.name
    updateZdnsZone faults.sites zone.id
  | .DELETE =>
    Exec.raiseIf (faults.sites .device) .ZdnsErrMessage
    Device.deleteZone viewName zone.name
    deleteZdnsZone faults.sites zone.id
  | .NONE => pure ()
  updateZoneStatus ctx conf faults.success zone.id action .SUCCESS

/-- `ZoneAction.__call__`, for the action the zone object carries. -/
def zoneAction (ctx : Context) (conf : Conf) (faults : ZoneFaults) (zone : Zone) :
    Call Unit := do
  let viewName ← zoneViewName ctx (faults.sites .getView) zone
  Exec.onError (zoneActionBody ctx conf faults zone zone.action viewName)
    (updateZoneStatus ctx conf faults.error zone.id zone.action .ERROR)

/-- `ViewAction.__call__` for a DELETE. -/
def deleteViewAction (fails : Bool) (view : View) : Call Unit := do
  Exec.raiseIf fails .ZdnsErrMessage
  Device.deleteView view.name

end Designate

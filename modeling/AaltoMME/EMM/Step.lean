import AaltoMME.EMM.States
import AaltoMME.S11.Responses

/-!
# Runs of an EMM context

Everything that happens to an EMM context is one of the events below, together with what the event
finds in its environment.  Between the events of one context the other contexts of the MME may have
used the S11 stack, so any other state of the stack is an event too.
-/

namespace AaltoMME

open Base NAS

/-- What happens to an EMM context. -/
inductive EMMEvent
  /-- A NAS PDU of the UE, `size` octets of memory. -/
  | uplink (buf : Mem) (size : UInt64)
  /-- The expiration of a timer. -/
  | timer (code : EMMTimerCode)
  /-- A packet from the serving gateway. -/
  | s11 (pkt : GtpPacket)
  /-- `emm_registerECM`. -/
  | registerECM (ecm : Nat)
  /-- `emm_deregister`. -/
  | deregister
  /-- `emm_stop`, called by `ecmSession_reset`. -/
  | stop
  /-- `emm_modifyE_RABList`, for an InitialContextSetupResponse or, with an ECM session, for a path
  switch that is acknowledged afterwards. -/
  | modifyERABList (list : Option (List ERABItem)) (pathSwitch : Option Nat)
  /-- `emm_UEContextReleaseReq` of an ECM session. -/
  | ueContextReleaseReq (ecm : Nat)
  /-- The S11 stack was used for other contexts. -/
  | s11Stack (s : S11Stack)

namespace EMMCtx

/-- One event. -/
def step (P : Prims) (c : EMMCtx) : Env × EMMEvent → Outcome EMMCtx
  | (env, .uplink buf size) => c.emmProcessMsg P env buf size
  | (env, .timer code) => c.timerExpires P env code
  | (env, .s11 pkt) => c.s11Accept P env pkt
  | (env, .registerECM ecm) => c.emmRegisterECM env ecm
  | (_, .deregister) => .ok c.emmDeregister
  | (env, .stop) => c.emmStop env
  | (env, .modifyERABList list pathSwitch) =>
    c.emmModifyERABList P env list (pathSwitch.map .sendPathSwitchReqAck)
  | (env, .ueContextReleaseReq ecm) => c.emmUEContextReleaseReq P env (.sendUEContextReleaseCommand ecm)
  | (_, .s11Stack s) => .ok { c with s11 := s }

end EMMCtx

end AaltoMME

import SmartSOCKSProxy.Foundations.CString

/-
  Services, and the texts that specify them.

  Key definitions include:
    * `ServiceKind`, `Service`
-/

namespace SmartSOCKSProxy

/- The services of service.h, with what each adds. -/
inductive ServiceKind where
| none
| socks
| portForward (remoteHost : CBuf 300) (remotePort : Int)
| http (baseDir : CBuf 4096)
deriving DecidableEq

structure Service where
  id : UInt64
  kind : ServiceKind
  bindAddress : CBuf 300
  port : Int
deriving DecidableEq

end SmartSOCKSProxy

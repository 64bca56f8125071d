import KzHome.Basic

/-!
# KzHome.Permissions

Roles, the permissions they carry, and the answers that routes refuse with.
-/

namespace KzHome

/-- `house_memberships.role` -/
inductive Role
  | owner
  | installer
  | technician
  | resident
  deriving DecidableEq, Repr

inductive Permission
  | houseRead
  | houseManage
  | memberRead
  | memberManage
  | deviceRead
  | deviceControl
  | deviceManage
  | deviceOnboard
  | sceneRead
  | sceneRun
  | sceneManage
  | automationRead
  | automationManage
  | eventRead
  | securityAuditRead
  deriving DecidableEq, Repr

/-- `ROLE_PERMISSIONS` -/
def Role.permits : Role → Permission → Bool
  | .owner, _ => true
  | .installer, permission =>
    [.houseRead, .deviceRead, .deviceControl, .deviceManage, .deviceOnboard, .sceneRead, .sceneRun,
      .sceneManage, .automationRead, .automationManage, .eventRead].contains permission
  | .technician, permission =>
    [.houseRead, .deviceRead, .deviceControl, .deviceManage, .eventRead].contains permission
  | .resident, permission =>
    [.houseRead, .deviceRead, .deviceControl, .sceneRead, .sceneRun].contains permission

/-- What a route raises: an error of a service, or an `HTTPException`. -/
inductive RouteError
  | service (error : Error)
  | http (status : Nat) (detail : String)
  deriving DecidableEq, Repr

/-- `HTTPException(404, "Resource not found")` of `require`. -/
def RouteError.hidden : RouteError := .http 404 "Resource not found"

/-- `HTTPException(403, "Insufficient house permission")` -/
def RouteError.forbidden : RouteError := .http 403 "Insufficient house permission"

end KzHome

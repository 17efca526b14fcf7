import SoildTunnel.App.Profile

open Kotlin Kotlin.Text

namespace App

structure Device where
  packageName        : Text
  installed          : Text → Bool
  uid                : Text → Int
  installed_notBlank : ∀ {pkg}, installed pkg → isBlank pkg = false
  uid_nonneg         : ∀ pkg, 0 ≤ uid pkg

-- The application lists of `VpnService.Builder`; a list exists once an application was added to it.
structure AppRules where
  allowed    : Option (List Text) := none
  disallowed : Option (List Text) := none

namespace AppRules

inductive Error
  | nameNotFound
  | unsupported

variable (dev : Device)

-- The two lists exclude each other, and only installed packages can be listed.
def addAllowedApplication (b : AppRules) (pkg : Text) : Except Error AppRules :=
  if b.disallowed.isSome then throw .unsupported
  else if dev.installed pkg then return { b with allowed := some (b.allowed.getD [] ++ [pkg]) }
  else throw .nameNotFound

def addDisallowedApplication (b : AppRules) (pkg : Text) : Except Error AppRules :=
  if b.allowed.isSome then throw .unsupported
  else if dev.installed pkg then return { b with disallowed := some (b.disallowed.getD [] ++ [pkg]) }
  else throw .nameNotFound

def safeAllow (b : AppRules) (pkg : Text) : AppRules :=
  match b.addAllowedApplication dev pkg with
  | .ok b'   => b'
  | .error _ => b

def safeDisallow (b : AppRules) (pkg : Text) : AppRules :=
  match b.addDisallowedApplication dev pkg with
  | .ok b'   => b'
  | .error _ => b

-- Android's rule: with an allow-list only its packages enter the VPN, with a disallow-list all but
-- its packages do, and without a list all of them do.
def Routes (b : AppRules) (pkg : Text) : Prop :=
  match b.allowed, b.disallowed with
  | some apps, _         => pkg ∈ apps
  | none,      some apps => pkg ∉ apps
  | none,      none      => True

end AppRules

open AppRules

def applyAppFilter (dev : Device) (p : ConnectionProfile) (b : AppRules) : AppRules :=
  let apps := p.splitApps.filter fun app => !isBlank app && app ≠ dev.packageName
  match p.splitMode with
  | .includeApps =>
    if apps = [] then b.safeDisallow dev dev.packageName
    else apps.foldl (safeAllow dev) b
  | .excludeApps =>
    let b := b.safeDisallow dev dev.packageName
    apps.filter (· ∉ p.blockedApps) |>.foldl (safeDisallow dev) b
  | .off => b.safeDisallow dev dev.packageName

namespace SocksTunBridge

def currentBlockedUids (dev : Device) (p : ConnectionProfile) : List Int :=
  (p.blockedApps.filter dev.installed).map dev.uid

-- A flow whose owner could not be resolved has the UID -1 and is let through.
def isUidBlocked (dev : Device) (p : ConnectionProfile) (uid : Int) : Bool :=
  if uid = -1 then false else uid ∈ currentBlockedUids dev p

end SocksTunBridge

end App

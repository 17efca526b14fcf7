import SoildTunnel.App.AppFilter

open Kotlin Kotlin.Text

namespace App

open List
namespace AppRules

variable {dev : Device} {b : AppRules} {pkg app : Text} {apps : List Text}

theorem safeAllow_eq (h : b.disallowed = none) : b.safeAllow dev app =
      if dev.installed app then { b with allowed := some (b.allowed.getD [] ++ [app]) } else b := by
  unfold safeAllow addAllowedApplication
  by_cases hi : dev.installed app <;>
    simp [h, hi, throw, throwThe, MonadExceptOf.throw, pure, Except.pure]

theorem safeDisallow_eq (h : b.allowed = none) : b.safeDisallow dev app =
      if dev.installed app then { b with disallowed := some (b.disallowed.getD [] ++ [app]) }
      else b := by
  unfold safeDisallow addDisallowedApplication
  by_cases hi : dev.installed app <;>
    simp [h, hi, throw, throwThe, MonadExceptOf.throw, pure, Except.pure]

-- Allowing applications one by one collects the installed ones; the list only comes into being when
-- there is one.
theorem foldl_safeAllow (apps : List Text) (h : b.disallowed = none) : apps.foldl (safeAllow dev) b =
      { b with
        allowed := if apps.filter dev.installed = [] then b.allowed
                   else some (b.allowed.getD [] ++ apps.filter dev.installed) } := by
  induction apps generalizing b
  case nil => simp
  case cons app apps hi =>
    rw [foldl_cons, safeAllow_eq h]
    by_cases ha : dev.installed app <;> simp only [ha, if_true, if_false, Bool.false_eq_true]
    case neg => simp [hi h, ha]
    case pos =>
      rw [hi (by exact h)]
      by_cases hf : apps.filter dev.installed = [] <;> simp [ha, hf]

theorem safeDisallow_allowed (h : b.allowed = none) : (b.safeDisallow dev app).allowed = none := by
  rw [safeDisallow_eq h]
  split <;> exact h

theorem routes_safeDisallow (h : b.allowed = none) :
    (b.safeDisallow dev app).Routes pkg ↔ b.Routes pkg ∧ ¬(app = pkg ∧ dev.installed app) := by
  rw [safeDisallow_eq h]
  by_cases ha : dev.installed app
  case neg => simp [ha]
  case pos => cases hd : b.disallowed <;> simp [Routes, h, hd, ha, eq_comm]

theorem routes_foldl_safeDisallow (apps : List Text) (h : b.allowed = none) :
    (apps.foldl (safeDisallow dev) b).Routes pkg ↔
      b.Routes pkg ∧ ¬(pkg ∈ apps ∧ dev.installed pkg) := by
  induction apps generalizing b
  case nil => simp
  case cons app apps hi =>
    rw [foldl_cons, hi (safeDisallow_allowed h), routes_safeDisallow h, mem_cons]
    by_cases ha : app = pkg
    case pos => subst ha; tauto
    case neg => simp [ha, Ne.symm ha]

end AppRules

open AppRules

variable {dev : Device} {p : ConnectionProfile} {pkg : Text}

theorem routes_safeDisallow_self (hs : pkg ≠ dev.packageName) : (safeDisallow dev {} dev.packageName).Routes pkg := by
  rw [routes_safeDisallow rfl]
  exact ⟨trivial, fun h => hs h.left.symm⟩

theorem routes_applyAppFilter_include (hi : dev.installed pkg) (hs : pkg ≠ dev.packageName)
    (hm : p.splitMode = .includeApps) :
    (applyAppFilter dev p {}).Routes pkg ↔
      ((∃ app ∈ p.splitApps, app ≠ dev.packageName ∧ dev.installed app) → pkg ∈ p.splitApps) := by
  have hmem : ∀ app, dev.installed app →
      (app ∈ p.splitApps.filter (fun app => !isBlank app && app ≠ dev.packageName) ↔
        app ∈ p.splitApps ∧ app ≠ dev.packageName) := by
    intro app ha
    simp [dev.installed_notBlank ha]
  simp only [applyAppFilter, hm]
  generalize hap : p.splitApps.filter _ = apps at hmem
  by_cases hnil : apps = []
  case pos =>
    -- Nothing to allow: the filter falls back to the disallow-list of the mode `off`.
    simp only [hnil, if_true, routes_safeDisallow_self hs, true_iff]
    rintro ⟨app, ha, hne, hin⟩
    exact absurd ((hmem app hin).mpr ⟨ha, hne⟩) (by simp [hnil])
  case neg =>
    rw [if_neg hnil, foldl_safeAllow apps rfl]
    by_cases hf : apps.filter dev.installed = []
    case pos =>
      simp only [hf, if_true, Routes, true_iff]
      rintro ⟨app, ha, hne, hin⟩
      exact absurd (filter_eq_nil_iff.mp hf app ((hmem app hin).mpr ⟨ha, hne⟩)) (by simp [hin])
    case neg =>
      simp only [hf, if_false, Routes, Option.getD_none, nil_append, mem_filter, hi,
        and_true, hmem pkg hi, hs, ne_eq, not_false_eq_true]
      have ⟨app, ha⟩ := exists_mem_of_ne_nil _ hf
      have ⟨ha, hin⟩ := mem_filter.mp ha
      have hx := (hmem app hin).mp ha
      exact ⟨fun h _ => h, fun h => h ⟨app, hx.left, hx.right, hin⟩⟩

-- A blocked package stays inside the interface exactly when it is not left out of an allow-list that
-- the mode `include` has built without it.
theorem routes_blocked_iff (hi : dev.installed pkg) (hs : pkg ≠ dev.packageName) (hb : pkg ∈ p.blockedApps) :
    (applyAppFilter dev p {}).Routes pkg ↔
      (p.splitMode = .includeApps →
        (∃ app ∈ p.splitApps, app ≠ dev.packageName ∧ dev.installed app) → pkg ∈ p.splitApps) := by
  cases hm : p.splitMode
  case includeApps => simpa using routes_applyAppFilter_include hi hs hm
  case off => simp [applyAppFilter, hm, routes_safeDisallow_self hs]
  case excludeApps =>
    simp only [applyAppFilter, hm]
    rw [routes_foldl_safeDisallow _ (safeDisallow_allowed rfl)]
    simp [routes_safeDisallow_self hs, hb]

def Device.sample : Device where
  packageName := lit "com.soildtunnel.app"
  installed := [lit "com.soildtunnel.app", lit "org.browser", lit "org.game"].contains
  uid _ := 10001
  installed_notBlank := by
    simp only [contains_iff_mem, mem_cons, not_mem_nil, or_false]
    rintro _ (rfl | rfl | rfl) <;> decide
  uid_nonneg _ := by decide

theorem routes_blocked_off :
    (applyAppFilter .sample { blockedApps := [lit "org.game"] } {}).Routes (lit "org.game") :=
  (routes_blocked_iff (by decide) (by decide) (by decide)).mpr (by decide)

-- Only the browser is tunnelled, so that the blocked game keeps its direct path.
theorem not_routes_blocked_include : ¬(applyAppFilter .sample
      { blockedApps := [lit "org.game"], splitMode := .includeApps, splitApps := [lit "org.browser"] }
      {}).Routes (lit "org.game") := by
  rw [routes_applyAppFilter_include (by decide) (by decide) rfl]
  decide

end App

/-!
# Findings

What can be wrong with a plugin candidate. All findings but one are fatal and exclude the candidate.
-/

namespace PluginRegistry

/-- A problem found with a candidate, in the order in which problems are reported. -/
inductive Finding
  | targetVersionOutdated
  | installLocationBad
  | applicationNotEnabled
  | editorNotEnabled
  | editorNotExported
  | editorRequiresPermission
  | executorNotEnabled
  | executorNotExported
  | executorRequiresPermission
  | missingExecutor
  | duplicateExecutor
  deriving DecidableEq, Repr

namespace Finding

def all : List Finding :=
  [targetVersionOutdated, installLocationBad, applicationNotEnabled, editorNotEnabled,
   editorNotExported, editorRequiresPermission, executorNotEnabled, executorNotExported,
   executorRequiresPermission, missingExecutor, duplicateExecutor]

/-- An outdated target version is only advisory. -/
def fatal : Finding → Bool
  | targetVersionOutdated => false
  | _ => true

def name : Finding → String
  | targetVersionOutdated => "target-version-outdated"
  | installLocationBad => "install-location-bad"
  | applicationNotEnabled => "application-not-enabled"
  | editorNotEnabled => "editor-not-enabled"
  | editorNotExported => "editor-not-exported"
  | editorRequiresPermission => "editor-requires-permission"
  | executorNotEnabled => "executor-not-enabled"
  | executorNotExported => "executor-not-exported"
  | executorRequiresPermission => "executor-requires-permission"
  | missingExecutor => "missing-executor"
  | duplicateExecutor => "duplicate-executor"

def problem : Finding → String
  | targetVersionOutdated =>
    "The plugin targets an older host version than the host and will run in compatibility mode."
  | installLocationBad => "Plugins must be installed on internal storage."
  | applicationNotEnabled => "The application is disabled."
  | editorNotEnabled => "The editor component is disabled."
  | editorNotExported => "The editor component is not exported."
  | editorRequiresPermission =>
    "The editor component requires a permission that is not granted to the host."
  | executorNotEnabled => "The executor component is disabled."
  | executorNotExported => "The executor component is not exported."
  | executorRequiresPermission =>
    "The executor component requires a permission that is not granted to the host."
  | missingExecutor => "The plugin has no executor component for its category."
  | duplicateExecutor => "The plugin has multiple executor components for its category."

def remedy : Finding → String
  | targetVersionOutdated => "raise the plugin's target version."
  | installLocationBad =>
    "declare an internal-only install location and do not install to removable storage."
  | applicationNotEnabled => "enable the application in its manifest."
  | editorNotEnabled => "enable the editor component in the manifest."
  | editorNotExported => "export the editor component in the manifest."
  | editorRequiresPermission => "remove the permission requirement from the editor component."
  | executorNotEnabled => "enable the executor component in the manifest."
  | executorNotExported => "export the executor component in the manifest."
  | executorRequiresPermission => "remove the permission requirement from the executor component."
  | missingExecutor => "declare exactly one executor component."
  | duplicateExecutor => "declare exactly one executor component."

def explanation (f : Finding) : String := f.problem ++ " To resolve this issue, " ++ f.remedy

def display (f : Finding) : String := f.name ++ ": " ++ f.explanation

theorem mem_all (f : Finding) : f ∈ all := by cases f <;> simp [all]

/-- The findings of a set in reporting order. -/
def sortedOf (s : List Finding) : List Finding := all.filter fun f => decide (f ∈ s)

end Finding

end PluginRegistry

/-!
# The configuration template

What a new configuration file holds.
-/

namespace EnvAudit.Config

/-- A configuration that changes nothing, with a word on each of its parts. -/
def template : String :=
  "# env-guardian configuration

# Suggestions for these are never reported
ignore:
  variables: []
  # Paths or glob patterns, relative to the scanned directory
  files: []
  #   - \"tests/**\"
  #   - \"src/legacy/config.js\"

# Scan settings
scan:
  # Directory names skipped in addition to node_modules, .git, dist, build, ...
  exclude_dirs: []
  # Priority threshold: low, medium, high or critical
  min_severity: low

# Extra YAML rule files
rules: []
#  - guardian-rules.yaml
"

end EnvAudit.Config

import Mathlib.Data.List.Basic

/-!
# The setting catalog (`core/function/SettingItem.h`, `SettingCatalog.h`)

Every setting of the application once, with what decides whether a new profile may start
with it.

- `SettingMeta`, `settingItems`, `findSetting`.
-/

namespace GpgFrontend

inductive SettingGroup where
  | engine
  | rpgp
  | behaviour
  | appearance
  | diagnostics
  | security
  | network
  | workspace
  | layout
  deriving Repr, DecidableEq

structure SettingMeta where
  key : String
  group : SettingGroup
  inheritable : Bool := false
  secret : Bool := false
  deriving Repr, DecidableEq

/-- `SettingItems::kAll`. -/
def settingItems : List SettingMeta := [
  { key := "basic/default_engine", group := .engine, inheritable := true },
  { key := "gnupg/use_custom_gnupg_install_path", group := .engine, inheritable := true },
  { key := "gnupg/custom_gnupg_install_path", group := .engine, inheritable := true },
  { key := "gnupg/enable_gpgme_debug_log", group := .engine, inheritable := true },
  { key := "gnupg/kill_all_gnupg_daemon_at_close", group := .engine, inheritable := true },
  { key := "gnupg/non_ascii_at_file_operation", group := .engine, inheritable := true },
  { key := "network/forbid_all_gnupg_connection", group := .engine, inheritable := true },
  { key := "basic/clear_gpg_password_cache", group := .engine, inheritable := true },
  { key := "engine/password_cache_ttl", group := .rpgp, inheritable := true },
  { key := "engine/password_cache_max_ttl", group := .rpgp, inheritable := true },
  { key := "engine/passphrase_prompt_timeout", group := .rpgp, inheritable := true },
  { key := "engine/passphrase_requester_grace_ms", group := .rpgp, inheritable := true },
  { key := "engine/argon2_s2k_profile", group := .rpgp, inheritable := true },
  { key := "basic/confirm_import_keys", group := .behaviour, inheritable := true },
  { key := "basic/single_recipient_mode", group := .behaviour, inheritable := true },
  { key := "basic/confirm_multiple_recipients", group := .behaviour, inheritable := true },
  { key := "basic/remember_checked_keys", group := .behaviour, inheritable := true },
  { key := "mobile/preferred_signer", group := .behaviour },
  { key := "mobile/show_encrypt_sign", group := .behaviour },
  { key := "mobile/show_decrypt_verify", group := .behaviour },
  { key := "mobile/show_symmetric_encrypt", group := .behaviour },
  { key := "mobile/default_encrypt_operation", group := .behaviour },
  { key := "mobile/default_decrypt_operation", group := .behaviour },
  { key := "basic/undoable_operations", group := .behaviour, inheritable := true },
  { key := "basic/restore_text_editor_page", group := .behaviour, inheritable := true },
  { key := "basic/default_workspace_as", group := .behaviour, inheritable := true },
  { key := "basic/file_panel_default_path_mode", group := .behaviour, inheritable := true },
  { key := "file_panel/show_type_column", group := .behaviour, inheritable := true },
  { key := "keys/expiring_soon_days", group := .behaviour, inheritable := true },
  { key := "network/auto_import_missing_key", group := .behaviour, inheritable := true },
  { key := "basic/module_loading_policy", group := .behaviour, inheritable := true },
  { key := "basic/lang", group := .appearance, inheritable := true },
  { key := "appearance/theme", group := .appearance, inheritable := true },
  { key := "wizard/show_wizard", group := .appearance, inheritable := true },
  { key := "advanced/log_level", group := .diagnostics, inheritable := true },
  { key := "advanced/log_ring_buffer_capacity", group := .diagnostics },
  { key := "advanced/secure_level", group := .security },
  { key := "advanced/app_key_protection", group := .security },
  { key := "advanced/os_secret_store", group := .security },
  { key := "advanced/profile_package_storage", group := .security },
  { key := "network/prohibit_update_check", group := .network },
  { key := "proxy/enable", group := .network },
  { key := "proxy/proxy_type", group := .network },
  { key := "proxy/proxy_host", group := .network },
  { key := "proxy/port", group := .network },
  { key := "proxy/username", group := .network, secret := true },
  { key := "proxy/password", group := .network, secret := true },
  { key := "workspace/path", group := .workspace },
  { key := "keys/key_tab_order", group := .layout },
  { key := "keys/keymgmt_tab_order", group := .layout },
  { key := "keys/toolbox_tab_order", group := .layout },
  { key := "keys/keygroup_manage_tab_order", group := .layout },
  { key := "keys/global_columns_filter", group := .layout },
  { key := "keys/toolbox_columns_filter", group := .layout },
  { key := "keys/custom_category_order", group := .layout },
  { key := "mobile/last_operation", group := .layout },
  { key := "mobile/editor_font", group := .appearance },
  { key := "mobile/editor_font_size", group := .appearance },
  { key := "mobile/editor_direction", group := .appearance },
  { key := "mobile/editor_alignment", group := .appearance }]

/-- `FindSetting`. -/
def findSetting (key : String) : Option SettingMeta :=
  settingItems.find? fun item => item.key = key

/-- `InheritableSettingGroups`: in the order of the catalog, each once. -/
def inheritableSettingGroups : List SettingGroup :=
  settingItems.foldl (fun groups item =>
    if !item.inheritable then groups
    else if item.group ∈ groups then groups
    else groups ++ [item.group]) []

/-- Every key is described once. -/
theorem findSetting_of_mem {item : SettingMeta} (h : item ∈ settingItems) :
    findSetting item.key = some item := by
  have hall : ∀ item ∈ settingItems, findSetting item.key = some item := by decide +kernel
  exact hall item h

theorem mem_of_findSetting {key : String} {item : SettingMeta} (h : findSetting key = some item) :
    item ∈ settingItems ∧ item.key = key := by
  have hkey := List.find?_some h
  exact ⟨List.mem_of_find?_eq_some h, by simpa using hkey⟩

theorem mem_inheritableSettingGroups {item : SettingMeta} (h : item ∈ settingItems)
    (hinherit : item.inheritable = true) : item.group ∈ inheritableSettingGroups := by
  have hall : ∀ item ∈ settingItems, item.inheritable = true →
      item.group ∈ inheritableSettingGroups := by decide +kernel
  exact hall item h hinherit

end GpgFrontend

/-! What the uploader process reads of the world around it.

The settings of `CReporterPrivacySettingsModel`, the network and USB state behind
`CReporterNwSessionMgr`, and the battery state behind `shouldSavePower()`. -/
namespace CrashReporter.Upload

/-- `QNetworkConfiguration::BearerType`. -/
inductive BearerType where
  | unknown | ethernet | wlan | bearer2G | cdma2000 | wcdma | hspa | bluetooth | wimax
  | evdo | lte | bearer3G | bearer4G
deriving DecidableEq

inductive UsbMode where
  | developer | other
deriving DecidableEq

/-- `MCE_BATTERY_STATUS_*`. -/
inductive BatteryStatus where
  | unknown | full | ok | low | empty
deriving DecidableEq

/-- `MCE_CHARGER_STATE_*`. -/
inductive ChargerState where
  | unknown | on | off
deriving DecidableEq

structure Settings where
  notificationsEnabled : Bool
  allowMobileData : Bool
  restrictWhenLowBattery : Bool
  restrictWhenDischarging : Bool
  dischargingThreshold : Int
deriving DecidableEq

structure Environment where
  settings : Settings
  /-- The default network configuration. -/
  bearerType : BearerType
  active : Bool
  usbAvailable : Bool
  usbMode : UsbMode
  /-- MCE's answers, none when the D-Bus call failed. -/
  batteryStatus : Option BatteryStatus
  batteryLevel : Option Int
  chargerState : Option ChargerState
deriving DecidableEq

namespace Environment

def connectionIsActive (env : Environment) : Bool := env.active

def developerModeIsActive (env : Environment) : Bool :=
  env.usbAvailable && env.usbMode = .developer

def canUseNetworkConnection (env : Environment) : Bool :=
  if env.settings.allowMobileData then true
  else env.bearerType = .wlan || env.bearerType = .ethernet ||
    (!env.connectionIsActive && env.developerModeIsActive)

def shouldSavePower (env : Environment) : Bool :=
  match env.batteryStatus, env.batteryLevel, env.chargerState with
  | some status, some level, some charger =>
    if status = .unknown then false
    else if status = .full then false
    else if charger ≠ .off then env.settings.restrictWhenLowBattery && status ≠ .ok
    else env.settings.restrictWhenDischarging && level < env.settings.dischargingThreshold
  | _, _, _ => false

/-- A USB cable in developer mode is the only network. -/
def usbCable : Environment where
  settings := ⟨true, false, true, true, 20⟩
  bearerType := .unknown
  active := false
  usbAvailable := true
  usbMode := .developer
  batteryStatus := some .ok
  batteryLevel := some 80
  chargerState := some .on

/-- The default connection is an active WLAN. -/
def wlan : Environment := {usbCable with bearerType := .wlan, active := true, usbMode := .other}

/-- The default connection is mobile data, which the settings forbid. -/
def mobile : Environment := {wlan with bearerType := .lte}

end Environment

end CrashReporter.Upload

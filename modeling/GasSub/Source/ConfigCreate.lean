import GasSub.Source.InitConf
import GasSub.Source.ReadConfigFile

/-!
# Writing the configuration file

`File_Create_TpConfig` of `user_file.c`, which `FileReceive_Task` calls with a received
configuration before it resets the board, and `File_Init` calls again when the board has
started. The records of the received structure are in a comment; what is written are the
structures `initConf` fills, four times over.
-/
namespace GasSub.Source

structure ConfigStruct where
  analogueConfig : AnalogueConfig
  switchConfig : SwitchConfig
  accumulateConfig : AccumulateConfig
  tristateConfig : TristateConfig
  deriving DecidableEq, Repr

/-- The part of a kind. -/
def ConfigStruct.part (conf : ConfigStruct) : SensorKind → SensorConfig
  | .analogue => .analogue conf.analogueConfig
  | .switch => .switch conf.switchConfig
  | .accumulate => .accumulate conf.accumulateConfig
  | .tristate => .tristate conf.tristateConfig

/-- Where the four local structures of a call lie, and what `tristate_conf` holds before
`initConf`. -/
structure CreateLocals where
  analogueAt : INT32U
  switchAt : INT32U
  accumulateAt : INT32U
  tristateAt : INT32U
  tristate : TristateConfig
  deriving DecidableEq, Repr

/-! The texts of the `strcpy` calls that `initConf` does not have. -/

def locationFourthArea : Location :=
  ⟨[0xCB, 0xC4, 0xB2, 0xC9, 0xC7, 0xF8, 0x38, 0x33, 0x32, 0xB9, 0xA4, 0xD7, 0xF7, 0xC3, 0xE6],
    by decide, by decide⟩

def locationSouthLane : Location :=
  ⟨[0xC4, 0xCF, 0xB4, 0xF3, 0xCF, 0xEF, 0xBB, 0xFA, 0xB5, 0xE7, 0xB6, 0xB4, 0xCA, 0xD2, 0x20],
    by decide, by decide⟩

def locationSecondArea : Location :=
  ⟨[0xB6, 0xFE, 0xB2, 0xC9, 0xC7, 0xF8, 0x38, 0x31, 0x31, 0xBE, 0xF2, 0xBD, 0xF8, 0xB9,
      0xA4, 0xD7, 0xF7, 0xC3, 0xE6], by decide, by decide⟩

/-- The `File_Set_Config_*` calls of `File_Create_TpConfig`, in their order. -/
def createdConfigs (l : CreateLocals) (_revConfig : ConfigStruct) : List (INT32U × SensorConfig) :=
  let an := initConfAnalogue
  let sw := initConfSwitch
  let ac := initConfAccumulate
  let tr := initConfTristate l.tristate
  -- four copies go into `analogue_conf.location`, one before each record
  let an := { an with location := initConfAnalogue.location }
  let written := [(l.analogueAt, SensorConfig.analogue an)]
  let an := { an with location := initConfSwitch.location }
  let written := written ++ [(l.switchAt, .switch sw)]
  let an := { an with location := initConfAccumulate.location }
  let written := written ++ [(l.accumulateAt, .accumulate ac)]
  let an := { an with location := (initConfTristate l.tristate).location }
  let written := written ++ [(l.tristateAt, .tristate tr)]
  let an := { an with location := locationFourthArea }
  let written := written ++ [(l.analogueAt, .analogue an)]
  let sw := { sw with location := locationSouthLane }
  let written := written ++ [(l.switchAt, .switch sw)]
  let ac := { ac with location := locationSecondArea }
  let written := written ++ [(l.accumulateAt, .accumulate ac), (l.tristateAt, .tristate tr)]
  let again : List (INT32U × SensorConfig) :=
    [(l.analogueAt, .analogue an), (l.switchAt, .switch sw), (l.accumulateAt, .accumulate ac),
      (l.tristateAt, .tristate tr)]
  written ++ again ++ again

/-- `File_Create_TpConfig`: the file as it was, if it cannot be opened. -/
def fileCreateTpConfig (opened : Bool) (l : CreateLocals) (revConfig : ConfigStruct)
    (file : List INT8U) : List INT8U :=
  if opened then configFile (createdConfigs l revConfig) else file

/-- One iteration of `FileReceive_Task` up to the reset. -/
def fileReceiveTask (opened : Bool) (l : CreateLocals) (revConf : ConfigStruct)
    (file : List INT8U) : List INT8U := fileCreateTpConfig opened l revConf file

/-- `File_TpConfig_Exist`; `revConf` is not set there. -/
def fileTpConfigExist (opened : Bool) (l : CreateLocals) (revConf : ConfigStruct)
    (file : List INT8U) : List INT8U := fileCreateTpConfig opened l revConf file

/-- What `File_Init` makes of the file after a start that is not the first one. -/
def fileInit (opened : Bool) (l : CreateLocals) (revConf : ConfigStruct)
    (file : List INT8U) : List INT8U := fileTpConfigExist opened l revConf file

end GasSub.Source

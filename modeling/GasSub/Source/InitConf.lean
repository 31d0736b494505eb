import GasSub.Source.Sensor

/-!
# The default configurations

`initConf` of `user_file.c`. Location texts are the GBK bytes of the source
literals; coefficients are the bit patterns of the `float` values 1.1 and 3.3.
-/
namespace GasSub.Source

def initConfAnalogue : AnalogueConfig where
  testpointNo := 10001
  sensorName := 10001
  location :=
    ⟨[0xBB, 0xB4, 0xB1, 0xB1, 0xBF, 0xF3, 0xD2, 0xB5, 0xBC, 0xAF,
      0xCD, 0xC5, 0xD4, 0xAC, 0xB5, 0xEA, 0xC3, 0xBA, 0xBF, 0xF3], by decide, by decide⟩
  portType := 17
  outputControl := #v[0x80, 0xFF]
  outage := ⟨valueUndef, 70⟩
  recover := ⟨valueUndef, 70⟩
  alarm := ⟨valueUndef, 70⟩
  liftAlarm := ⟨70, valueUndef⟩
  measureRange := ⟨0, 200⟩
  coefficient := 0x3F8CCCCD

def initConfSwitch : SwitchConfig where
  testpointNo := 20002
  sensorName := 20001
  location :=
    ⟨[0xD6, 0xD0, 0xB4, 0xAC, 0xD6, 0xD8, 0xB9, 0xA4, 0xBF, 0xF3, 0xD3,
      0xC3, 0xD7, 0xB0, 0xB1, 0xB8, 0xCA, 0xB5, 0xD1, 0xE9, 0xCA, 0xD2], by decide, by decide⟩
  portType := 17
  outputControl := #v[0x20, 0xFF]

def initConfAccumulate : AccumulateConfig where
  testpointNo := 30003
  sensorName := 30001
  location :=
    ⟨[0xBB, 0xB4, 0xB1, 0xB1, 0xBF, 0xF3, 0xD2, 0xB5, 0xBC, 0xAF, 0xCD,
      0xC5, 0xD6, 0xEC, 0xCF, 0xC9, 0xD7, 0xAF, 0xC3, 0xBA, 0xBF, 0xF3], by decide, by decide⟩
  portType := 24
  measureMaxVal := 12345
  shift := 3
  coefficient := 0x40533333

/-- `current[3]` is not assigned: it keeps whatever the structure held. -/
def initConfTristate (tr : TristateConfig) : TristateConfig where
  testpointNo := 40004
  sensorName := 40001
  location :=
    ⟨[0xBB, 0xB4, 0xB1, 0xB1, 0xB4, 0xB4, 0xC6, 0xE6, 0xBC, 0xE0, 0xB2, 0xE2,
      0xC9, 0xE8, 0xB1, 0xB8, 0xD3, 0xD0, 0xCF, 0xDE, 0xB9, 0xAB, 0xCB, 0xBE], by decide, by decide⟩
  portType := 36
  outputControl := #v[0x08, 0xFF]
  current := #v[0, 1, 5, tr.current[3]]

end GasSub.Source

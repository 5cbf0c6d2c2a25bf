import ObjcOutline.Config.Decoder
import ObjcOutline.Yaml.Decoding
import ObjcOutline.Yaml.Document

/-!
# Configuration files

The program's own configuration files are YAML.
-/
namespace ObjcOutline.Config

open Yaml (RecordShape)

def outputShape : RecordShape OutputConfig where
  name := "config.OutputConfig"
  fields := [
    .bool "header" fun c header => { c with header },
    .text "indent" fun c indent => { c with indent }]

def mapShape : RecordShape MapConfig where
  name := "config.MapConfig"
  fields := [
    .bool "include_properties" fun c includeProperties => { c with includeProperties },
    .text "indent" fun c indent => { c with indent }]

def shape : RecordShape Config where
  name := "config.Config"
  fields := [
    .text "extractor" fun c extractor => { c with extractor },
    .text "root_type" fun c rootType => { c with rootType },
    .record "output" outputShape Config.output fun c output => { c with output },
    .record "map" mapShape Config.map fun c map => { c with map }]

instance : Reported Yaml.DecodeError where
  message := Yaml.DecodeError.message
  isNotFound _ := false

/-- Decodes the first document of a YAML file. What does not fit is passed over, and the rest is
written all the same. -/
def yaml : Decoder Yaml.DecodeError := fun data config =>
  match Yaml.Document.ofBytes data with
  | .error fault => (config, some (.malformed fault))
  | .ok document => shape.ofDocument document config

def load (disk : Disk) (path : Text) : Except (LoadError Yaml.DecodeError) Config :=
  yaml.load disk path

end ObjcOutline.Config

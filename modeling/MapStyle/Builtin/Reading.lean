import MapStyle.Builtin.Basic
import MapStyle.Double.Arithmetic
import MapStyle.Error

/-!
# Features and their reading

Where data come from, and the functions that ask for them.
-/

namespace MapStyle

/-!
## Features and sources

A feature has properties and may have an id and a geometry type.  A source answers for the data
that an expression asks for, in whichever way it likes.  Two sources are made here: one knows
nothing yet, and one has a feature, drawn in an environment of render variables.
-/

structure Feature where
  id : Option Value := none
  geometryType : Option String := none
  properties : Entries := []

namespace Feature

def withId (feature : Feature) (id : Value) : Feature := { feature with id := some id }

def withGeometryType (feature : Feature) (name : String) : Feature :=
  { feature with geometryType := some name }

def withProperty (feature : Feature) (name : String) (value : Value) : Feature :=
  { feature with properties := feature.properties.insert name value }

end Feature

/--
What answers for the data behind an expression.  An answer that is not given is that the datum is
not known yet.
-/
structure Source where
  /-- A property of the feature, which may lack it. -/
  property : String → Except Error (Option Value) :=
    fun name => .error (.unresolved (.property name))
  featureId : Outcome := .error (.unresolved .featureId)
  geometryType : Outcome := .error (.unresolved .geometryType)
  properties : Outcome := .error (.unresolved .properties)
  /-- A variable of the render pass. -/
  environment : String → Outcome := fun name => .error (.unresolved (.environment name))

namespace Source

/-- No feature is known yet, and no render pass. -/
def constants : Source := {}

/-- A feature, drawn in an environment of render variables; what it lacks is null. -/
def scope (feature : Feature) (environment : Entries) : Source where
  property name := .ok (feature.properties.find? name)
  featureId := .ok (feature.id.getD .null)
  geometryType := .ok ((feature.geometryType.map .string).getD .null)
  properties := .ok (.object feature.properties)
  environment name := .ok ((environment.find? name).getD .null)

end Source

/-!
## Reading the feature and its environment

Functions that ask a source.  The zoom level is derived from the scale denominator of the render
pass.
-/

def scaleDenominator : String := "wms_scale_denominator"

def heatmapDensity : String := "heatmap-density"

/-- The only reference system in which zoom levels are known. -/
def webMercator : String := "EPSG:3857"

namespace Zoom

/-- The scale denominator of zoom level zero in web mercator, at 0.28 mm a pixel. -/
def scaleAtZero : Double := Decimal.toDouble false ⟨5590822640287178, -7⟩

/-- The zoom level, with its fraction, at a scale. -/
def level (scale : Double) : Double := (scaleAtZero / scale).log2

end Zoom

namespace Reading

def hasProperty (source : Source) (argument : Outcome) : Outcome := do
  let name ← Operand.text Builtin.hasProperty.name 0 argument
  let found ← source.property name
  return .boolean found.isSome

def environment (source : Source) (argument : Outcome) : Outcome := do
  let name ← Operand.text Builtin.environment.name 0 argument
  source.environment name

def zoomLevel (scale system : Outcome) : Outcome := do
  let denominator ← Operand.number Builtin.zoomLevel.name 0 scale
  let name ← Operand.text Builtin.zoomLevel.name 1 system
  if name = webMercator then return .ofDouble (Zoom.level denominator)
  else throw (.notSupported ("zoom level in " ++ name))

end Reading

end MapStyle

import DataImage.Arm.Elf
import DataImage.Arm.Emission
import DataImage.Arm.Instruction
import DataImage.Arm.Writer
import DataImage.Assembly
import DataImage.Bits
import DataImage.Catalog.Basic
import DataImage.Catalog.Core
import DataImage.Catalog.Declare
import DataImage.Catalog.Region
import DataImage.CommandLine.Arguments
import DataImage.CommandLine.Run
import DataImage.Description.Basic
import DataImage.Description.Blueprint
import DataImage.Description.Reading
import DataImage.Image.Basic
import DataImage.Image.Content
import DataImage.Image.Failure
import DataImage.Image.Layout
import DataImage.Image.Reference
import DataImage.Image.Resolve
import DataImage.Json.Basic
import DataImage.Json.Number
import DataImage.Json.Record
import DataImage.Json.Token
import DataImage.Keyed
import DataImage.Main
import DataImage.Module.Basic
import DataImage.Module.Constant
import DataImage.Module.Lowering
import DataImage.Module.Size
import DataImage.Module.Storage
import DataImage.Module.Symbol
import DataImage.Module.Text
import DataImage.Module.Verify
import DataImage.Object.Basic
import DataImage.Object.Library
import DataImage.Proofs.Acyclic
import DataImage.Proofs.Arm.Binding
import DataImage.Proofs.Arm.Emission
import DataImage.Proofs.Arm.Meaning
import DataImage.Proofs.Arm.Placement
import DataImage.Proofs.Arm.Writer
import DataImage.Proofs.Assembly.Actions
import DataImage.Proofs.Assembly.Binding
import DataImage.Proofs.Assembly.Compile
import DataImage.Proofs.Assembly.Failing
import DataImage.Proofs.Assembly.Objects
import DataImage.Proofs.Bits
import DataImage.Proofs.Build.Blame
import DataImage.Proofs.Build.Calls
import DataImage.Proofs.Build.Causes
import DataImage.Proofs.Build.Closure
import DataImage.Proofs.Build.Content
import DataImage.Proofs.Build.Declaring
import DataImage.Proofs.Build.Failures
import DataImage.Proofs.Build.Fills
import DataImage.Proofs.Build.Halting
import DataImage.Proofs.Build.Layout
import DataImage.Proofs.Build.Order
import DataImage.Proofs.Build.Picture
import DataImage.Proofs.Build.Rebuild
import DataImage.Proofs.Build.Reference
import DataImage.Proofs.Build.Resolve
import DataImage.Proofs.Build.Restated
import DataImage.Proofs.Build.Roots
import DataImage.Proofs.Build.Runs
import DataImage.Proofs.Build.Sizes
import DataImage.Proofs.Build.Strings
import DataImage.Proofs.Build.Structs
import DataImage.Proofs.Build.Success
import DataImage.Proofs.Build.Sweep
import DataImage.Proofs.Build.Symbols
import DataImage.Proofs.Build.Verified
import DataImage.Proofs.Build.Views
import DataImage.Proofs.Catalog.Acyclic
import DataImage.Proofs.Catalog.Altering
import DataImage.Proofs.Catalog.Ancestry
import DataImage.Proofs.Catalog.Bytes
import DataImage.Proofs.Catalog.Chain
import DataImage.Proofs.Catalog.Citations
import DataImage.Proofs.Catalog.Conforming
import DataImage.Proofs.Catalog.CoreTypes
import DataImage.Proofs.Catalog.Declared
import DataImage.Proofs.Catalog.Described
import DataImage.Proofs.Catalog.Forms
import DataImage.Proofs.Catalog.Geometry
import DataImage.Proofs.Catalog.Growing
import DataImage.Proofs.Catalog.Leaves
import DataImage.Proofs.Catalog.Lineage
import DataImage.Proofs.Catalog.Origins
import DataImage.Proofs.Catalog.Picture
import DataImage.Proofs.Catalog.Regions
import DataImage.Proofs.Catalog.Shape
import DataImage.Proofs.Catalog.Sizes
import DataImage.Proofs.Catalog.Strings
import DataImage.Proofs.Catalog.Tables
import DataImage.Proofs.Catalog.Value
import DataImage.Proofs.Catalog.WellTyped
import DataImage.Proofs.Catalog.WellTypedContents
import DataImage.Proofs.CommandLine.Outcome
import DataImage.Proofs.Description.Declarations
import DataImage.Proofs.Description.Faults
import DataImage.Proofs.Description.Filling
import DataImage.Proofs.Description.Members
import DataImage.Proofs.Description.Names
import DataImage.Proofs.Description.Places
import DataImage.Proofs.Description.Steps
import DataImage.Proofs.Description.Translation
import DataImage.Proofs.Description.Types
import DataImage.Proofs.Image.Checked
import DataImage.Proofs.Image.Coherent
import DataImage.Proofs.Image.Growth
import DataImage.Proofs.Image.Lowering
import DataImage.Proofs.Image.Picture
import DataImage.Proofs.Image.RegionPicture
import DataImage.Proofs.Image.Verified
import DataImage.Proofs.Module.Addresses
import DataImage.Proofs.Module.Declaring
import DataImage.Proofs.Module.Findings
import DataImage.Proofs.Module.FreeNames
import DataImage.Proofs.Module.GlobalNames
import DataImage.Proofs.Module.Integers
import DataImage.Proofs.Module.Links
import DataImage.Proofs.Module.Lowering
import DataImage.Proofs.Module.Merging
import DataImage.Proofs.Module.Names
import DataImage.Proofs.Module.Operations
import DataImage.Proofs.Module.Ordered
import DataImage.Proofs.Module.Relocations
import DataImage.Proofs.Module.Sizes
import DataImage.Proofs.Module.Slots
import DataImage.Proofs.Module.Union
import DataImage.Proofs.Module.Verifying
import DataImage.Proofs.Object.Library
import DataImage.Proofs.Partial
import DataImage.Proofs.Text.Utf16
import DataImage.Settings
import DataImage.Text.Quoted
import DataImage.Text.Utf16
import DataImage.Text.Visible

import LibvirtXml.ElementTree
import LibvirtXml.Markup
import LibvirtXml.Write
import LibvirtXml.Accessors
import LibvirtXml.Virsh
import LibvirtXml.VmXml.Basic
import LibvirtXml.VmXml.Rename
import LibvirtXml.VmXml.CpuMode
import LibvirtXml.VmXml.CpuXml
import LibvirtXml.VmXml.Devices
import LibvirtXml.VmXml.Session
import LibvirtXml.VmXml.Writable
import LibvirtXml.WellFormed
import LibvirtXml.Fuel
import LibvirtXml.MacChange
